import ProgrammableSolana.Core.Deposit
import ProgrammableSolana.Core.Refinement

/-! A successful deposit moves its amount into one vault of one market, and accounts for it. -/
namespace ProgrammableSolana.Core

open ProgrammableSolana.Lib ProgrammableSolana.Solana ProgrammableSolana.Lib.Custody

/-- The domain after a deposit: the balance its asset index selects has grown by the amount. -/
inductive AccountsFor (domain : DomainV0) (amount : ℕ) : UInt8 → UInt8 → DomainV0 → Prop where
  | assetA {accountedA : UInt64} (h : accountedA.toNat = domain.accountedA.toNat + amount) :
    AccountsFor domain amount assetAIndexV0 domain.vaultABump { domain with accountedA }
  | assetB {accountedB : UInt64} (h : accountedB.toNat = domain.accountedB.toNat + amount) :
    AccountsFor domain amount assetBIndexV0 domain.vaultBBump { domain with accountedB }

/-- The flow of a deposit. -/
def DepositV0Args.flow (args : DepositV0Args) : Flow :=
  if args.assetIndex = assetAIndexV0 then ⟨args.amount.toNat, 0, 0, 0⟩
  else if args.assetIndex = assetBIndexV0 then ⟨0, args.amount.toNat, 0, 0⟩
  else 0

section

variable [Crypto] {cfg : Config} {L L' : Ledger} {a : DepositV0} {args : DepositV0Args}
  {d : DepositData}

/-- What loading and the checks before the transfer establish. -/
structure DepositBound (cfg : Config) (L : Ledger) (a : DepositV0) (args : DepositV0Args)
    (d : DepositData) : Prop where
  market : L.state? cfg.ID a.market.key = some (.market d.market)
  domain : L.state? cfg.ID a.domain.key = some (.domain d.domain)
  domainMarket : d.domain.market = a.market.key
  mint : L.mint? a.mint.key = some d.mint
  providerSource : L.token? a.providerSource.key = some d.providerSource
  domainVault : L.token? a.domainVault.key = some d.domainVault
  distinct : a.providerSource.key ≠ a.domainVault.key
  signed : a.provider.isSigner = true
  owner : d.providerSource.owner = a.provider.key
  vaultAddress : ∃ bump domain, AccountsFor d.domain args.amount.toNat args.assetIndex bump domain ∧
    createProgramAddress [cfg.vaultSeedV0, a.domain.key.toList, [args.assetIndex], [bump]] cfg.ID =
      some a.domainVault.key

/-- What a successful deposit did. -/
structure Deposited (cfg : Config) (L L' : Ledger) (a : DepositV0) (args : DepositV0Args)
    (d : DepositData) : Prop extends DepositBound cfg L a args d where
  moved : ∃ source vault, L'.token? a.providerSource.key = some source ∧
    L'.token? a.domainVault.key = some vault ∧
    Debited d.providerSource source a.provider.key args.amount.toNat ∧
    Credited d.domainVault vault args.amount.toNat
  accounted : ∃ bump domain, AccountsFor d.domain args.amount.toNat args.assetIndex bump domain ∧
    createProgramAddress [cfg.vaultSeedV0, a.domain.key.toList, [args.assetIndex], [bump]] cfg.ID =
      some a.domainVault.key ∧
    L'.state? cfg.ID a.domain.key = some (.domain domain)
  frame : ∀ k, k ∉ [a.providerSource.key, a.domainVault.key, a.domain.key] → L' k = L k

omit [Crypto] in
/-- The asset that is selected, with the balance that will be stored for it. -/
theorem depositAsset_ok {asset : DepositAsset} {accountedAfter : UInt64}
    (h : depositAsset d args.assetIndex = .ok asset)
    (hadd : accountedAfter.toNat = asset.accountedBefore.toNat + args.amount.toNat) :
    ∃ domain, storeAccounted d.domain args.assetIndex accountedAfter = .ok domain ∧
      AccountsFor d.domain args.amount.toNat args.assetIndex asset.vaultBump domain := by
  unfold depositAsset at h
  unfold storeAccounted
  split at h
  · next hi =>
    cases h
    rw [hi]
    exact ⟨_, rfl, .assetA hadd⟩
  · split at h
    · next hi =>
      cases h
      rw [hi]
      exact ⟨_, rfl, .assetB hadd⟩
    · cases h

theorem loadDeposit_ok (h : loadDeposit cfg L a = .ok d) :
    a.provider.isSigner = true ∧ L.state? cfg.ID a.market.key = some (.market d.market) ∧
      L.state? cfg.ID a.domain.key = some (.domain d.domain) ∧
      L.mint? a.mint.key = some d.mint ∧
      L.token? a.providerSource.key = some d.providerSource ∧
      L.token? a.domainVault.key = some d.domainVault := by
  simp only [loadDeposit, loadSigner, except_bind_ok_iff, require_ok_iff,
    loadMarket_ok_iff cfg.ID_ne_system, loadDomain_ok_iff cfg.ID_ne_system, loadMintAccount_ok_iff,
    loadTokenAccount_ok_iff, except_pure_ok_iff] at h
  obtain ⟨_, hs, _, hm, _, hd, _, hmint, _, hsrc, _, hv, _, -, _, -, _, -, _, -, _, -, _, -, rfl⟩ := h
  exact ⟨hs, hm, hd, hmint, hsrc, hv⟩

theorem validateDeposit_ok {accountedAfter : UInt64} (hload : loadDeposit cfg L a = .ok d)
    (h : validateDeposit cfg a d args = .ok accountedAfter) :
    DepositBound cfg L a args d ∧
      ∃ bump domain, AccountsFor d.domain args.amount.toNat args.assetIndex bump domain ∧
        createProgramAddress [cfg.vaultSeedV0, a.domain.key.toList, [args.assetIndex], [bump]]
          cfg.ID = some a.domainVault.key ∧
        storeAccounted d.domain args.assetIndex accountedAfter = .ok domain := by
  obtain ⟨hsigned, hm, hd, hmint, hsrc, hv⟩ := loadDeposit_ok hload
  simp only [validateDeposit, validateMarketDomain, canonicalDomainVault, requireRawCoversAccounted,
    except_bind_ok_iff, ensureDistinctRoles_ok_iff, require_ok_iff, okOr_ok_iff,
    checkedAdd_eq_some, validateProtectedTokenAccount_ok_iff] at h
  obtain ⟨_, -, _, -, _, hroles, _, ⟨_, -, _, -, _, -, _, -, _, -, _, hdm, -⟩, _, -, _, -, asset, hasset, _,
    -, vault, haddr, _, rfl, _, hsource, _, -, _, -, hadd⟩ := h
  obtain ⟨domain, hstore, hacc⟩ := depositAsset_ok hasset hadd
  have hne : a.providerSource.key ≠ a.domainVault.key := by
    have hnodup := (List.nodup_append.mp hroles).1
    simp only [List.nodup_cons, List.mem_cons, not_or] at hnodup
    exact hnodup.2.2.2.2.1.1
  exact ⟨⟨hm, hd, hdm, hmint, hsrc, hv, hne, hsigned, hsource.owner, ⟨_, _, hacc, haddr⟩⟩,
    _, _, hacc, haddr, hstore⟩

theorem deposit_ok {w w' : World} {u : Unit} (h : (handleDepositV0 cfg a args).run w = (.ok u, w')) :
    ∃ d, Deposited cfg w.ledger w'.ledger a args d := by
  simp only [handleDepositV0, Exec.bind_ok_iff, Exec.get_ok_iff, Exec.ofExcept_ok_iff,
    Exec.mapError_run_ok_iff, Exec.modify_ok_iff, emit] at h
  obtain ⟨_, _, ⟨rfl, rfl⟩, d, _, ⟨hload, rfl⟩, accountedAfter, _, ⟨hvalid, rfl⟩, _, w₁, hinvoke, _, _,
    ⟨rfl, rfl⟩, _, _, ⟨-, rfl⟩, domain, _, ⟨hstore, rfl⟩, _, _, rfl, rfl⟩ := h
  obtain ⟨hbound, bump, domain', hacc, haddr, hstore'⟩ := validateDeposit_ok hload hvalid
  obtain rfl : domain = domain' := Except.ok.inj (hstore.symm.trans hstore')
  obtain ⟨-, hop, -, -⟩ := tokenInvoke_ok hinvoke
  obtain ⟨source, vault, hs, hv, hdebit, hcredit, hframe⟩ :=
    transferChecked_effect hop hbound.distinct hbound.providerSource hbound.domainVault
  have hds := Ledger.state?_ne_token? hbound.domain hbound.providerSource
  have hdv := Ledger.state?_ne_token? hbound.domain hbound.domainVault
  refine ⟨d, { hbound with
    moved := ⟨source, vault, ?_, ?_, hdebit, hcredit⟩
    accounted := ⟨bump, domain, hacc, haddr, ?_⟩
    frame := fun k hk => ?_ }⟩
  · exact (Ledger.token?_congr (Ledger.setData_of_ne (Ne.symm hds) _)).trans hs
  · exact (Ledger.token?_congr (Ledger.setData_of_ne (Ne.symm hdv) _)).trans hv
  · refine Ledger.state?_setState_self ?_
    rw [hframe _ hds hdv]
    exact (Ledger.state?_eq_some.mp hbound.domain).1
  · simp only [List.mem_cons, List.not_mem_nil, or_false, not_or] at hk
    exact (Ledger.setData_of_ne hk.2.2 _).trans (hframe k hk.1 hk.2.1)

theorem deposit_logged {w w' : World} {u : Unit}
    (h : (handleDepositV0 cfg a args).run w = (.ok u, w')) :
    engineCalls w'.log = engineCalls w.log ∧ ∃ e : LiquidityDepositedV0,
      emittedEvents w'.log = emittedEvents w.log ++ [.liquidityDeposited e] ∧
      e.market = a.market.key ∧ e.assetIndex = args.assetIndex ∧ e.amount = args.amount := by
  simp only [handleDepositV0, Exec.bind_ok_iff, Exec.get_ok_iff, Exec.ofExcept_ok_iff,
    Exec.mapError_run_ok_iff, Exec.modify_ok_iff, emit] at h
  obtain ⟨_, _, ⟨rfl, rfl⟩, d, _, ⟨-, rfl⟩, accountedAfter, _, ⟨-, rfl⟩, _, w₁, hinvoke, _, _,
    ⟨rfl, rfl⟩, _, _, ⟨-, rfl⟩, domain, _, ⟨-, rfl⟩, _, _, rfl, rfl⟩ := h
  obtain ⟨hcalls, hemitted⟩ := tokenInvoke_quiet hinvoke
  refine ⟨?_, _, (emittedEvents_append _ _).trans (congrArg (· ++ _) hemitted), rfl, rfl, rfl⟩
  simpa using hcalls

/-- The accounts of a deposit, found in the record of its market. -/
theorem DepositBound.record (h : DepositBound cfg L a args d) (hinv : Inv cfg L) :
    ∃ r, MarketOk cfg L a.market.key r ∧ r.market = d.market ∧ r.domainKey = a.domain.key ∧
      r.domain = d.domain := by
  obtain ⟨r, hr, hk, hd⟩ := hinv.domain h.domain
  rw [h.domainMarket] at hr
  exact ⟨r, hr, by simpa using hr.market.symm.trans h.market, hk, hd⟩

theorem DepositBound.vault_mem (h : DepositBound cfg L a args d) {r : MarketRecord}
    (hr : MarketOk cfg L a.market.key r) (hk : r.domainKey = a.domain.key) (hd : r.domain = d.domain) :
    a.domainVault.key ∈ r.vaultKeys := by
  obtain ⟨bump, domain, hacc, haddr⟩ := h.vaultAddress
  have ha := createProgramAddress_of_find hr.vaultAAddress
  have hb := createProgramAddress_of_find hr.vaultBAddress
  rw [hk, hd] at ha hb
  simp only [MarketRecord.vaultKeys, List.mem_cons]
  generalize args.assetIndex = i at hacc haddr
  cases hacc with
  | assetA => exact .inl (Option.some.inj (haddr.symm.trans ha))
  | assetB => exact .inr (.inl (Option.some.inj (haddr.symm.trans hb)))

/-- A deposit by an outside signer touches nothing of another market. -/
theorem Deposited.frame_other (h : Deposited cfg L L' a args d)
    (hsigner : ¬ IsPda cfg.ID a.provider.key) {r : MarketRecord}
    (hr : MarketOk cfg L a.market.key r) (hk : r.domainKey = a.domain.key) (hd : r.domain = d.domain)
    {key' : Pubkey} {r' : MarketRecord} (hr' : MarketOk cfg L key' r') (hne : key' ≠ a.market.key)
    {k : Pubkey} (hmem : r'.owns key' k ∨ k ∈ r'.vaultKeys) : L' k = L k := by
  refine h.frame k fun htouched => ?_
  simp only [List.mem_cons, List.not_mem_nil, or_false] at htouched
  rcases hmem with hown | hvault
  · obtain ⟨s, hs⟩ := hr'.state_of_owns hown
    rcases htouched with rfl | rfl | rfl
    · exact Ledger.state?_ne_token? hs h.providerSource rfl
    · exact Ledger.state?_ne_token? hs h.domainVault rfl
    · exact hne (hr'.key_of_owns_both hr hown (.inr (.inl hk.symm)))
  · rcases htouched with rfl | rfl | rfl
    · have hpda := hr'.vault_owner_isPda hvault h.providerSource
      rw [h.owner] at hpda
      exact hsigner hpda
    · exact hne (hr'.key_of_vault hr hvault (h.vault_mem hr hk hd))
    · obtain ⟨t, _, _, ht, -⟩ := hr'.vault_profile hvault
      exact Ledger.state?_ne_token? h.domain ht rfl

theorem Deposited.state_kept (h : Deposited cfg L L' a args d) {k : Pubkey} {s : CoreState}
    (hs : L.state? cfg.ID k = some s) (hne : k ≠ a.domain.key) : L' k = L k := by
  refine h.frame k ?_
  simp only [List.mem_cons, List.not_mem_nil, or_false, not_or]
  exact ⟨Ledger.state?_ne_token? hs h.providerSource, Ledger.state?_ne_token? hs h.domainVault, hne⟩

theorem Deposited.state_old (h : Deposited cfg L L' a args d) {k : Pubkey} {s : CoreState}
    (hs : L'.state? cfg.ID k = some s) : ∃ s', L.state? cfg.ID k = some s' := by
  obtain ⟨source, vault, hsource, hvault, -⟩ := h.moved
  by_cases hk : k = a.domain.key
  · rw [hk]
    exact ⟨_, h.domain⟩
  · refine ⟨s, (Ledger.state?_congr (h.frame k ?_)).symm.trans hs⟩
    simp only [List.mem_cons, List.not_mem_nil, or_false, not_or]
    exact ⟨Ledger.state?_ne_token? hs hsource, Ledger.state?_ne_token? hs hvault, hk⟩

theorem Deposited.mint_kept (h : Deposited cfg L L' a args d) {k : Pubkey} (hk : MintOk L k) :
    MintOk L' k := by
  obtain ⟨m, hm, hfreeze⟩ := hk
  refine ⟨m, (Ledger.mint?_congr (h.frame k fun hmem => ?_)).trans hm, hfreeze⟩
  simp only [List.mem_cons, List.not_mem_nil, or_false] at hmem
  rcases hmem with rfl | rfl | rfl
  · exact Ledger.token?_ne_mint? h.providerSource hm rfl
  · exact Ledger.token?_ne_mint? h.domainVault hm rfl
  · exact Ledger.state?_ne_mint? h.domain hm rfl

theorem Deposited.actsOn (h : Deposited cfg L L' a args d) (hinv : Inv cfg L)
    (hsigner : ¬ IsPda cfg.ID a.provider.key) :
    ∃ r r', ActsOn cfg L L' a.market.key r r' args.flow := by
  obtain ⟨r, hr, -, hk, hd⟩ := h.record hinv
  obtain ⟨source, vault, -, hvault, -, hcredit⟩ := h.moved
  obtain ⟨bump, domain, hacc, haddr, hdomain⟩ := h.accounted
  have hmarket : L' a.market.key = L a.market.key := h.state_kept hr.market fun heq => by
    have hm := hr.market
    rw [heq, h.domain] at hm
    cases hm
  have hfee : L' r.feeLedgerKey = L r.feeLedgerKey := h.state_kept hr.feeLedger fun heq =>
    hr.domain_ne_feeLedger hr (hk.trans heq.symm)
  have hfeeState := (Ledger.state?_congr hfee).trans hr.feeLedger
  have hother : ∀ k ∈ r.vaultKeys, k ≠ a.domainVault.key → ∀ t, L.token? k = some t →
      L'.token? k = some t := by
    intro k hmem hne t ht
    refine (Ledger.token?_congr (h.frame k ?_)).trans ht
    simp only [List.mem_cons, List.not_mem_nil, or_false, not_or]
    refine ⟨fun hs => ?_, hne, Ne.symm (Ledger.state?_ne_token? h.domain ht)⟩
    have hpda := hr.vault_owner_isPda hmem ht
    rw [hs, h.providerSource, Option.some.injEq] at ht
    exact hsigner (h.owner ▸ ht ▸ hpda)
  have hothers : ∀ key' r', MarketOk cfg L key' r' → key' ≠ a.market.key → Spares L L' key' r' :=
    fun _ _ hr' hne => spares_of_same (fun _ hmem => h.frame_other hsigner hr hk hd hr' hne hmem)
      fun _ => h.mint_kept
  have hnodup := hr.vaults_nodup
  simp only [MarketRecord.vaultKeys, List.nodup_cons, List.mem_cons, List.not_mem_nil, or_false,
    not_or, ← ne_eq] at hnodup hother
  obtain ⟨⟨hab, haf⟩, hbf, -⟩ := hnodup
  have hbefore := h.domainVault
  have hamount := hcredit.amount
  rw [hcredit.rest] at hvault
  rw [← hk] at hdomain haddr
  rw [← hd] at hacc
  generalize hi : args.assetIndex = i at hacc haddr
  cases hacc with
  | @assetA accountedA hadd =>
    have hkey : a.domainVault.key = r.vaultAKey :=
      Option.some.inj (haddr.symm.trans (createProgramAddress_of_find hr.vaultAAddress))
    rw [hkey] at hvault hother hbefore
    have hv : d.domainVault = r.vaultA := Option.some.inj (hbefore.symm.trans hr.vaultA)
    rw [hv] at hvault hamount
    refine ⟨r, _, hr, hr.rebooked hmarket hdomain hfeeState hvault
      (hother _ (.inr (.inl rfl)) hab.symm _ hr.vaultB)
      (hother _ (.inr (.inr rfl)) haf.symm _ hr.feeVault) fun _ => h.mint_kept, rfl, ?_, hothers,
      fun _ _ => h.state_old⟩
    constructor <;>
      simp [MarketRecord.book, MarketRecord.rebooked, DepositV0Args.flow, hi, hadd, hamount]
  | @assetB accountedB hadd =>
    have hkey : a.domainVault.key = r.vaultBKey :=
      Option.some.inj (haddr.symm.trans (createProgramAddress_of_find hr.vaultBAddress))
    rw [hkey] at hvault hother hbefore
    have hv : d.domainVault = r.vaultB := Option.some.inj (hbefore.symm.trans hr.vaultB)
    rw [hv] at hvault hamount
    refine ⟨r, _, hr, hr.rebooked hmarket hdomain hfeeState
      (hother _ (.inl rfl) hab _ hr.vaultA) hvault
      (hother _ (.inr (.inr rfl)) hbf.symm _ hr.feeVault) fun _ => h.mint_kept, rfl, ?_, hothers,
      fun _ _ => h.state_old⟩
    have hB : assetBIndexV0 ≠ assetAIndexV0 := by decide
    constructor <;>
      simp [MarketRecord.book, MarketRecord.rebooked, DepositV0Args.flow, hi, hadd, hamount, hB]

end

end ProgrammableSolana.Core
