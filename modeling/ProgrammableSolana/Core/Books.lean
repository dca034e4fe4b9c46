import ProgrammableSolana.Core.Settlement
import ProgrammableSolana.Lib.Custody

/-! The invariant of a Core: every account it owns belongs to a complete market, at canonical
addresses, whose vaults are protected and cover what is accounted. -/
namespace ProgrammableSolana.Core

open ProgrammableSolana.Lib ProgrammableSolana.Solana ProgrammableSolana.Lib.Custody

/-- A market with everything that belongs to it. -/
structure MarketRecord where
  market : MarketV0
  domainKey : Pubkey
  domain : DomainV0
  feeLedgerKey : Pubkey
  feeLedger : FeeLedgerV0
  vaultAKey : Pubkey
  vaultA : TokenAccount
  vaultBKey : Pubkey
  vaultB : TokenAccount
  feeVaultKey : Pubkey
  feeVault : TokenAccount

/-- The books of a market: the accounted fields against the raw balances of the vaults. -/
def MarketRecord.book (r : MarketRecord) : Book where
  accountedA := r.domain.accountedA.toNat
  accountedB := r.domain.accountedB.toNat
  accountedFee := r.feeLedger.accountedFeeA.toNat
  rawA := r.vaultA.amount.toNat
  rawB := r.vaultB.amount.toNat
  rawFee := r.feeVault.amount.toNat

/-- A mint a market can be built on. -/
def MintOk (L : Ledger) (key : Pubkey) : Prop :=
  ∃ m : Mint, L.mint? key = some m ∧ m.freezeAuthority = none

section

variable [Crypto] (cfg : Config)

/-- The record `r` is the complete market at `key`. -/
structure MarketOk (L : Ledger) (key : Pubkey) (r : MarketRecord) : Prop where
  market : L.state? cfg.ID key = some (.market r.market)
  domain : L.state? cfg.ID r.domainKey = some (.domain r.domain)
  feeLedger : L.state? cfg.ID r.feeLedgerKey = some (.feeLedger r.feeLedger)
  marketAddress : createProgramAddress
    [cfg.marketSeedV0, r.market.initializer.toList, r.market.marketId.toList, [r.market.bump]]
    cfg.ID = some key
  domainAddress : findProgramAddress [cfg.domainSeedV0, key.toList] cfg.ID =
    some (r.domainKey, r.domain.bump)
  feeLedgerAddress : findProgramAddress [cfg.feeLedgerSeedV0, key.toList, r.market.mintA.toList]
    cfg.ID = some (r.feeLedgerKey, r.feeLedger.bump)
  vaultAAddress : findProgramAddress [cfg.vaultSeedV0, r.domainKey.toList, [assetAIndexV0]] cfg.ID =
    some (r.vaultAKey, r.domain.vaultABump)
  vaultBAddress : findProgramAddress [cfg.vaultSeedV0, r.domainKey.toList, [assetBIndexV0]] cfg.ID =
    some (r.vaultBKey, r.domain.vaultBBump)
  feeVaultAddress : findProgramAddress [cfg.feeVaultSeedV0, r.feeLedgerKey.toList] cfg.ID =
    some (r.feeVaultKey, r.feeLedger.feeVaultBump)
  feeBps : r.market.feeBps = protocolFeeBpsV0
  domainMarket : r.domain.market = key
  domainEngine : r.domain.engineProgram = r.market.engineProgram ∧
    r.domain.engineState = r.market.engineState ∧
    r.domain.engineRevision = r.market.engineRevision
  feeLedgerMarket : r.feeLedger.market = key ∧ r.feeLedger.mintA = r.market.mintA
  mints : r.market.mintA ≠ r.market.mintB
  mintA : MintOk L r.market.mintA
  mintB : MintOk L r.market.mintB
  vaultA : L.token? r.vaultAKey = some r.vaultA
  vaultB : L.token? r.vaultBKey = some r.vaultB
  feeVault : L.token? r.feeVaultKey = some r.feeVault
  profileA : ProtectedProfile r.vaultA r.market.mintA r.domainKey
  profileB : ProtectedProfile r.vaultB r.market.mintB r.domainKey
  profileFee : ProtectedProfile r.feeVault r.market.mintA r.feeLedgerKey

/-- The accounts of a market that the Core owns. -/
def MarketRecord.owns (r : MarketRecord) (key k : Pubkey) : Prop :=
  k = key ∨ k = r.domainKey ∨ k = r.feeLedgerKey

/-- Every account in which a Core keeps state belongs to a complete market. -/
def Inv (L : Ledger) : Prop :=
  ∀ k s, L.state? cfg.ID k = some s → ∃ key r, MarketOk cfg L key r ∧ r.owns key k

variable {cfg}

/-- A ledger holds at most one record of a market. -/
theorem MarketOk.unique {L : Ledger} {key : Pubkey} {r r' : MarketRecord}
    (h : MarketOk cfg L key r) (h' : MarketOk cfg L key r') : r = r' := by
  have hm : r.market = r'.market := by
    simpa using h.market.symm.trans h'.market
  have hdk := h.domainAddress.symm.trans h'.domainAddress
  simp only [Option.some.injEq, Prod.mk.injEq] at hdk
  have hd : r.domain = r'.domain := by
    have := h.domain
    rw [hdk.1] at this
    simpa using this.symm.trans h'.domain
  have hfk := h.feeLedgerAddress
  rw [hm, h'.feeLedgerAddress] at hfk
  simp only [Option.some.injEq, Prod.mk.injEq] at hfk
  have hf : r.feeLedger = r'.feeLedger := by
    have := h.feeLedger
    rw [← hfk.1] at this
    simpa using this.symm.trans h'.feeLedger
  have hak := h.vaultAAddress
  rw [hdk.1, h'.vaultAAddress] at hak
  have hbk := h.vaultBAddress
  rw [hdk.1, h'.vaultBAddress] at hbk
  have hvk := h.feeVaultAddress
  rw [← hfk.1, h'.feeVaultAddress] at hvk
  simp only [Option.some.injEq, Prod.mk.injEq] at hak hbk hvk
  have ha : r.vaultA = r'.vaultA := by
    have := h.vaultA
    rw [← hak.1] at this
    simpa using this.symm.trans h'.vaultA
  have hb : r.vaultB = r'.vaultB := by
    have := h.vaultB
    rw [← hbk.1] at this
    simpa using this.symm.trans h'.vaultB
  have hv : r.feeVault = r'.feeVault := by
    have := h.feeVault
    rw [← hvk.1] at this
    simpa using this.symm.trans h'.feeVault
  cases r
  cases r'
  simp_all

theorem Inv.market {L : Ledger} (h : Inv cfg L) {k : Pubkey} {m : MarketV0}
    (hk : L.state? cfg.ID k = some (.market m)) : ∃ r, MarketOk cfg L k r ∧ r.market = m := by
  obtain ⟨key, r, hr, rfl | rfl | rfl⟩ := h k _ hk
  · exact ⟨r, hr, by simpa using hr.market.symm.trans hk⟩
  · simpa using hr.domain.symm.trans hk
  · simpa using hr.feeLedger.symm.trans hk

theorem Inv.domain {L : Ledger} (h : Inv cfg L) {k : Pubkey} {d : DomainV0}
    (hk : L.state? cfg.ID k = some (.domain d)) :
    ∃ r, MarketOk cfg L d.market r ∧ r.domainKey = k ∧ r.domain = d := by
  obtain ⟨key, r, hr, rfl | rfl | rfl⟩ := h k _ hk
  · simpa using hr.market.symm.trans hk
  · have hd : r.domain = d := by simpa using hr.domain.symm.trans hk
    rw [← hd, hr.domainMarket]
    exact ⟨r, hr, rfl, rfl⟩
  · simpa using hr.feeLedger.symm.trans hk

theorem Inv.feeLedger {L : Ledger} (h : Inv cfg L) {k : Pubkey} {f : FeeLedgerV0}
    (hk : L.state? cfg.ID k = some (.feeLedger f)) :
    ∃ r, MarketOk cfg L f.market r ∧ r.feeLedgerKey = k ∧ r.feeLedger = f := by
  obtain ⟨key, r, hr, rfl | rfl | rfl⟩ := h k _ hk
  · simpa using hr.market.symm.trans hk
  · simpa using hr.domain.symm.trans hk
  · have hf : r.feeLedger = f := by simpa using hr.feeLedger.symm.trans hk
    rw [← hf, hr.feeLedgerMarket.1]
    exact ⟨r, hr, rfl, rfl⟩

/-- The addresses of a market's vaults. -/
def MarketRecord.vaultKeys (r : MarketRecord) : List Pubkey := [r.vaultAKey, r.vaultBKey, r.feeVaultKey]

theorem MarketOk.domain_isPda {L : Ledger} {key : Pubkey} {r : MarketRecord}
    (h : MarketOk cfg L key r) : IsPda cfg.ID r.domainKey :=
  isPda_of_create (createProgramAddress_of_find h.domainAddress)

theorem MarketOk.feeLedger_isPda {L : Ledger} {key : Pubkey} {r : MarketRecord}
    (h : MarketOk cfg L key r) : IsPda cfg.ID r.feeLedgerKey :=
  isPda_of_create (createProgramAddress_of_find h.feeLedgerAddress)

theorem MarketOk.domain_ne_feeLedger {L : Ledger} {key key' : Pubkey} {r r' : MarketRecord}
    (h : MarketOk cfg L key r) (h' : MarketOk cfg L key' r') : r.domainKey ≠ r'.feeLedgerKey := by
  intro heq
  have hd := h.domain
  rw [heq, h'.feeLedger] at hd
  simp at hd

/-- The domain knows its market, so two markets do not share one. -/
theorem MarketOk.key_of_domain {L : Ledger} {key key' : Pubkey} {r r' : MarketRecord}
    (h : MarketOk cfg L key r) (h' : MarketOk cfg L key' r') (heq : r.domainKey = r'.domainKey) :
    key = key' := by
  have hd := h.domain
  rw [heq, h'.domain, Option.some.injEq, CoreState.domain.injEq] at hd
  rw [← h.domainMarket, ← h'.domainMarket, hd]

theorem MarketOk.key_of_feeLedger {L : Ledger} {key key' : Pubkey} {r r' : MarketRecord}
    (h : MarketOk cfg L key r) (h' : MarketOk cfg L key' r')
    (heq : r.feeLedgerKey = r'.feeLedgerKey) : key = key' := by
  have hf := h.feeLedger
  rw [heq, h'.feeLedger, Option.some.injEq, CoreState.feeLedger.injEq] at hf
  rw [← h.feeLedgerMarket.1, ← h'.feeLedgerMarket.1, hf]

theorem MarketOk.key_of_owns_both {L : Ledger} {key key' k : Pubkey} {r r' : MarketRecord}
    (h : MarketOk cfg L key r) (h' : MarketOk cfg L key' r') (hk : r.owns key k)
    (hk' : r'.owns key' k) : key = key' := by
  rcases hk with rfl | rfl | rfl <;> rcases hk' with hk' | hk' | hk'
  · exact hk'
  · simpa [hk', h'.domain] using h.market
  · simpa [hk', h'.feeLedger] using h.market
  · simpa [hk', h'.market] using h.domain
  · exact h.key_of_domain h' hk'
  · exact absurd hk' (h.domain_ne_feeLedger h')
  · simpa [hk', h'.market] using h.feeLedger
  · exact absurd hk'.symm (h'.domain_ne_feeLedger h)
  · exact h.key_of_feeLedger h' hk'

theorem MarketOk.state_of_owns {L : Ledger} {key k : Pubkey} {r : MarketRecord}
    (h : MarketOk cfg L key r) (hk : r.owns key k) : ∃ s, L.state? cfg.ID k = some s := by
  rcases hk with rfl | rfl | rfl
  · exact ⟨_, h.market⟩
  · exact ⟨_, h.domain⟩
  · exact ⟨_, h.feeLedger⟩

theorem MarketOk.vault_profile {L : Ledger} {key : Pubkey} {r : MarketRecord}
    (h : MarketOk cfg L key r) {k : Pubkey} (hk : k ∈ r.vaultKeys) :
    ∃ t mint authority, L.token? k = some t ∧ ProtectedProfile t mint authority ∧
      MintOk L mint ∧ (authority = r.domainKey ∨ authority = r.feeLedgerKey) := by
  simp only [MarketRecord.vaultKeys, List.mem_cons, List.not_mem_nil, or_false] at hk
  rcases hk with rfl | rfl | rfl
  · exact ⟨_, _, _, h.vaultA, h.profileA, h.mintA, .inl rfl⟩
  · exact ⟨_, _, _, h.vaultB, h.profileB, h.mintB, .inl rfl⟩
  · exact ⟨_, _, _, h.feeVault, h.profileFee, h.mintA, .inr rfl⟩

theorem MarketOk.vault_owner_isPda {L : Ledger} {key k : Pubkey} {r : MarketRecord}
    (h : MarketOk cfg L key r) (hk : k ∈ r.vaultKeys) {t : TokenAccount} (ht : L.token? k = some t) :
    IsPda cfg.ID t.owner := by
  obtain ⟨t', _, authority, ht', hp, -, ha⟩ := h.vault_profile hk
  obtain rfl : t' = t := Option.some.inj (ht'.symm.trans ht)
  rw [hp.owner]
  rcases ha with rfl | rfl
  · exact h.domain_isPda
  · exact h.feeLedger_isPda

/-- The vaults of a market differ in mint or in owner. -/
theorem MarketOk.vaults_nodup {L : Ledger} {key : Pubkey} {r : MarketRecord}
    (h : MarketOk cfg L key r) : r.vaultKeys.Nodup := by
  have hab : r.vaultAKey ≠ r.vaultBKey := by
    intro heq
    have ht := h.vaultA
    rw [heq, h.vaultB, Option.some.injEq] at ht
    exact h.mints (by rw [← h.profileA.mint, ← h.profileB.mint, ht])
  have haf : r.vaultAKey ≠ r.feeVaultKey := by
    intro heq
    have ht := h.vaultA
    rw [heq, h.feeVault, Option.some.injEq] at ht
    exact h.domain_ne_feeLedger h (by rw [← h.profileA.owner, ← h.profileFee.owner, ht])
  have hbf : r.vaultBKey ≠ r.feeVaultKey := by
    intro heq
    have ht := h.vaultB
    rw [heq, h.feeVault, Option.some.injEq] at ht
    exact h.domain_ne_feeLedger h (by rw [← h.profileB.owner, ← h.profileFee.owner, ht])
  simp [MarketRecord.vaultKeys, hab, haf, hbf]

/-- The owner of a vault tells its market. -/
theorem MarketOk.key_of_vault {L : Ledger} {key key' k : Pubkey} {r r' : MarketRecord}
    (h : MarketOk cfg L key r) (h' : MarketOk cfg L key' r') (hk : k ∈ r.vaultKeys)
    (hk' : k ∈ r'.vaultKeys) : key = key' := by
  obtain ⟨t, _, a, ht, hp, -, ha⟩ := h.vault_profile hk
  obtain ⟨t', _, a', ht', hp', -, ha'⟩ := h'.vault_profile hk'
  rw [ht, Option.some.injEq] at ht'
  have howner : a = a' := by rw [← hp.owner, ← hp'.owner, ht']
  rcases ha with rfl | rfl <;> rcases ha' with rfl | rfl
  · exact h.key_of_domain h' howner
  · exact absurd howner (h.domain_ne_feeLedger h')
  · exact absurd howner.symm (h'.domain_ne_feeLedger h)
  · exact h.key_of_feeLedger h' howner

/-- What a change of the ledger leaves of a market it does not act on: the Core's own accounts
as they are, the vaults with at least their tokens. -/
structure Spares (L L' : Ledger) (key : Pubkey) (r : MarketRecord) : Prop where
  market : L' key = L key
  domain : L' r.domainKey = L r.domainKey
  feeLedger : L' r.feeLedgerKey = L r.feeLedgerKey
  vault : ∀ k ∈ r.vaultKeys, ∀ t, L.token? k = some t →
    ∃ amount, L'.token? k = some { t with amount } ∧ t.amount ≤ amount
  mint : ∀ k, MintOk L k → MintOk L' k

omit [Crypto] in
theorem spares_of_same {L L' : Ledger} {key : Pubkey} {r : MarketRecord}
    (h : ∀ k, r.owns key k ∨ k ∈ r.vaultKeys → L' k = L k)
    (hmint : ∀ k, MintOk L k → MintOk L' k) : Spares L L' key r where
  market := h _ (.inl (.inl rfl))
  domain := h _ (.inl (.inr (.inl rfl)))
  feeLedger := h _ (.inl (.inr (.inr rfl)))
  vault k hk t ht := ⟨t.amount, (Ledger.token?_congr (h k (.inr hk))).trans ht, UInt64.le_refl _⟩
  mint := hmint

/-- The record of `r` with other amounts in its books. -/
def MarketRecord.rebooked (r : MarketRecord) (accountedA accountedB accountedFeeA a b f : UInt64) :
    MarketRecord :=
  { r with
    domain := { r.domain with accountedA, accountedB }
    feeLedger := { r.feeLedger with accountedFeeA }
    vaultA := { r.vaultA with amount := a }
    vaultB := { r.vaultB with amount := b }
    feeVault := { r.feeVault with amount := f } }

omit [Crypto] in
theorem ProtectedProfile.withAmount {t : TokenAccount} {mint authority : Pubkey}
    (h : ProtectedProfile t mint authority) (amount : UInt64) :
    ProtectedProfile { t with amount } mint authority :=
  ⟨h.state, h.isNative, h.mint, h.owner, h.delegate, h.delegatedAmount, h.closeAuthority⟩

/-- A change of amounts alone keeps a market complete. -/
theorem MarketOk.rebooked {L L' : Ledger} {key : Pubkey} {r : MarketRecord}
    (h : MarketOk cfg L key r) {accountedA accountedB accountedFeeA a b f : UInt64}
    (hm : L' key = L key)
    (hd : L'.state? cfg.ID r.domainKey =
      some (.domain { r.domain with accountedA, accountedB }))
    (hf : L'.state? cfg.ID r.feeLedgerKey = some (.feeLedger { r.feeLedger with accountedFeeA }))
    (ha : L'.token? r.vaultAKey = some { r.vaultA with amount := a })
    (hb : L'.token? r.vaultBKey = some { r.vaultB with amount := b })
    (hv : L'.token? r.feeVaultKey = some { r.feeVault with amount := f })
    (hmint : ∀ k, MintOk L k → MintOk L' k) :
    MarketOk cfg L' key (r.rebooked accountedA accountedB accountedFeeA a b f) where
  market := (Ledger.state?_congr hm).trans h.market
  domain := hd
  feeLedger := hf
  marketAddress := h.marketAddress
  domainAddress := h.domainAddress
  feeLedgerAddress := h.feeLedgerAddress
  vaultAAddress := h.vaultAAddress
  vaultBAddress := h.vaultBAddress
  feeVaultAddress := h.feeVaultAddress
  feeBps := h.feeBps
  domainMarket := h.domainMarket
  domainEngine := h.domainEngine
  feeLedgerMarket := h.feeLedgerMarket
  mints := h.mints
  mintA := hmint _ h.mintA
  mintB := hmint _ h.mintB
  vaultA := ha
  vaultB := hb
  feeVault := hv
  profileA := h.profileA.withAmount a
  profileB := h.profileB.withAmount b
  profileFee := h.profileFee.withAmount f

/-- A market that is spared keeps its record, up to tokens that arrived in its vaults. -/
theorem MarketOk.spared {L L' : Ledger} {key : Pubkey} {r : MarketRecord} (h : MarketOk cfg L key r)
    (hs : Spares L L' key r) :
    ∃ a b f, MarketOk cfg L' key (r.rebooked r.domain.accountedA r.domain.accountedB
        r.feeLedger.accountedFeeA a b f) ∧
      r.vaultA.amount ≤ a ∧ r.vaultB.amount ≤ b ∧ r.feeVault.amount ≤ f := by
  obtain ⟨a, ha, hle⟩ := hs.vault r.vaultAKey (by simp [MarketRecord.vaultKeys]) _ h.vaultA
  obtain ⟨b, hb, hleb⟩ := hs.vault r.vaultBKey (by simp [MarketRecord.vaultKeys]) _ h.vaultB
  obtain ⟨f, hf, hlef⟩ := hs.vault r.feeVaultKey (by simp [MarketRecord.vaultKeys]) _ h.feeVault
  exact ⟨a, b, f, h.rebooked hs.market ((Ledger.state?_congr hs.domain).trans h.domain)
    ((Ledger.state?_congr hs.feeLedger).trans h.feeLedger) ha hb hf hs.mint, hle, hleb, hlef⟩

end

end ProgrammableSolana.Core
