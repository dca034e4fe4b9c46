import ProgrammableSolana.Core.State
import ProgrammableSolana.Lib.Checked

/-! The account checks the three Cores share. -/
namespace ProgrammableSolana.Core

open ProgrammableSolana.Lib ProgrammableSolana.Solana

def experimentVersionV0 : UInt8 := 0

def assetAIndexV0 : UInt8 := 0

def assetBIndexV0 : UInt8 := 1

def protocolFeeBpsV0 : UInt16 := 30

def feePolicyRevisionV0 : UInt64 := 0

def ensureNoRemainingAccounts (accounts : List AccountInfo) : Result Unit :=
  require (accounts = []) (.core .unexpectedRemainingAccounts)

def ensureDistinctRoles : List Pubkey → Result Unit
  | [] => .ok ()
  | key :: keys => do
    require (¬ keys.any (· = key)) (.core .duplicateAccountRole)
    ensureDistinctRoles keys

section Addresses

variable [Crypto] (cfg : Config)

def validateMarketDomain (marketKey : Pubkey) (market : MarketV0) (domainKey : Pubkey)
    (domain : DomainV0) : Result Unit := do
  require (market.version = experimentVersionV0) (.core .invalidMarket)
  require (domain.version = experimentVersionV0) (.core .invalidDomain)
  require (market.feeBps = protocolFeeBpsV0 ∧ market.feePolicyRevision = feePolicyRevisionV0)
    (.core .invalidFeePolicy)
  let expectedMarket ← okOr (createProgramAddress
    [cfg.marketSeedV0, market.initializer.toList, market.marketId.toList, [market.bump]] cfg.ID)
    (.core .invalidMarket)
  require (marketKey = expectedMarket) (.core .invalidMarket)
  require (domain.market = marketKey) (.core .invalidDomainAdmission)
  let expectedDomain ← okOr (createProgramAddress
    [cfg.domainSeedV0, marketKey.toList, [domain.bump]] cfg.ID) (.core .invalidDomain)
  require (domainKey = expectedDomain) (.core .invalidDomain)
  require (domain.engineProgram = market.engineProgram) (.core .invalidDomainAdmission)
  require (domain.engineState = market.engineState) (.core .invalidDomainAdmission)
  require (domain.engineRevision = market.engineRevision) (.core .invalidEngineRevision)

def validateFeeLedger (marketKey : Pubkey) (market : MarketV0) (feeLedgerKey : Pubkey)
    (feeLedger : FeeLedgerV0) : Result Unit := do
  require (feeLedger.version = experimentVersionV0) (.core .invalidFeeLedger)
  require (feeLedger.market = marketKey) (.core .invalidFeeLedger)
  require (feeLedger.mintA = market.mintA) (.core .invalidFeeLedger)
  let expected ← okOr (createProgramAddress
    [cfg.feeLedgerSeedV0, marketKey.toList, market.mintA.toList, [feeLedger.bump]] cfg.ID)
    (.core .invalidFeeLedger)
  require (feeLedgerKey = expected) (.core .invalidFeeLedger)

def canonicalDomainVault (domainKey : Pubkey) (assetIndex bump : UInt8) : Result Pubkey :=
  okOr (createProgramAddress [cfg.vaultSeedV0, domainKey.toList, [assetIndex], [bump]] cfg.ID)
    (.core .invalidDomainVault)

def canonicalFeeVault (feeLedgerKey : Pubkey) (bump : UInt8) : Result Pubkey :=
  okOr (createProgramAddress [cfg.feeVaultSeedV0, feeLedgerKey.toList, [bump]] cfg.ID)
    (.core .invalidFeeVault)

end Addresses

section Profiles

def validateClassicMint (mintKey : Pubkey) (mint : Mint) : Result Unit := do
  require (mint.isInitialized = true) (.core .mintNotInitialized)
  require (mintKey ≠ nativeMint) (.core .nativeMintUnsupported)
  require (mint.freezeAuthority = none) (.core .mintFreezeAuthorityUnsupported)

def validateCommonTokenAccount (account : TokenAccount) (expectedMint : Pubkey) : Result Unit := do
  require (account.state ≠ .frozen) (.core .frozenTokenAccount)
  require (account.state = .initialized) (.core .tokenAccountNotInitialized)
  require (account.isNative = none) (.core .nativeTokenAccountUnsupported)
  require (account.mint = expectedMint) (.core .invalidTokenMint)

def validateProtectedTokenAccount (account : TokenAccount) (expectedMint expectedAuthority : Pubkey) :
    Result Unit := do
  validateCommonTokenAccount account expectedMint
  require (account.owner = expectedAuthority) (.core .invalidTokenAuthority)
  require (account.delegate = none) (.core .tokenDelegateUnsupported)
  require (account.delegatedAmount = 0) (.core .invalidDelegatedAmount)
  require (account.closeAuthority = none) (.core .tokenCloseAuthorityUnsupported)

def validateCreditDestination (account : TokenAccount) (expectedMint : Pubkey) : Result Unit :=
  validateCommonTokenAccount account expectedMint

def requireRawCoversAccounted (raw accounted : UInt64) : Result Unit :=
  require (accounted ≤ raw) (.core .vaultBelowAccountedBalance)

def exactDebit (before after expected : UInt64) (errorCode : CoreError) : Result Unit := do
  let observed ← okOr (checkedSub before after) (.core .arithmeticOverflow)
  require (observed = expected) (.core errorCode)

def exactCredit (before after expected : UInt64) (errorCode : CoreError) : Result Unit := do
  let observed ← okOr (checkedSub after before) (.core .arithmeticOverflow)
  require (observed = expected) (.core errorCode)

end Profiles

/-- A token account in the profile Core accepts for its own vaults. -/
structure ProtectedProfile (account : TokenAccount) (mint authority : Pubkey) : Prop where
  state : account.state = .initialized
  isNative : account.isNative = none
  mint : account.mint = mint
  owner : account.owner = authority
  delegate : account.delegate = none
  delegatedAmount : account.delegatedAmount = 0
  closeAuthority : account.closeAuthority = none

theorem ensureDistinctRoles_ok_iff {keys : List Pubkey} {u : Unit} :
    ensureDistinctRoles keys = .ok u ↔ keys.Nodup := by
  induction keys with
  | nil => simp [ensureDistinctRoles]
  | cons key keys ih =>
    simp only [ensureDistinctRoles, except_bind_ok_iff, require_ok_iff, ih, List.nodup_cons]
    simp

theorem validateCommonTokenAccount_ok_iff {account : TokenAccount} {mint : Pubkey} {u : Unit} :
    validateCommonTokenAccount account mint = .ok u ↔
      account.state = .initialized ∧ account.isNative = none ∧ account.mint = mint := by
  simp only [validateCommonTokenAccount, except_bind_ok_iff, require_ok_iff]
  constructor
  · rintro ⟨_, -, _, hs, _, hn, hm⟩
    exact ⟨hs, hn, hm⟩
  · rintro ⟨hs, hn, hm⟩
    exact ⟨(), by simp [hs], (), hs, (), hn, hm⟩

theorem validateProtectedTokenAccount_ok_iff {account : TokenAccount} {mint authority : Pubkey}
    {u : Unit} :
    validateProtectedTokenAccount account mint authority = .ok u ↔
      ProtectedProfile account mint authority := by
  simp only [validateProtectedTokenAccount, except_bind_ok_iff, validateCommonTokenAccount_ok_iff,
    require_ok_iff]
  constructor
  · rintro ⟨_, ⟨hs, hn, hm⟩, _, ho, _, hd, _, hda, hc⟩
    exact ⟨hs, hn, hm, ho, hd, hda, hc⟩
  · intro h
    exact ⟨(), ⟨h.state, h.isNative, h.mint⟩, (), h.owner, (), h.delegate, (), h.delegatedAmount,
      h.closeAuthority⟩

theorem exactDebit_ok_iff {before after expected : UInt64} {e : CoreError} {u : Unit} :
    exactDebit before after expected e = .ok u ↔
      before.toNat = expected.toNat + after.toNat := by
  simp only [exactDebit, except_bind_ok_iff, okOr_ok_iff, checkedSub_eq_some, require_ok_iff]
  constructor
  · rintro ⟨_, h, rfl⟩
    exact h
  · exact fun h => ⟨expected, h, rfl⟩

theorem exactCredit_ok_iff {before after expected : UInt64} {e : CoreError} {u : Unit} :
    exactCredit before after expected e = .ok u ↔
      after.toNat = expected.toNat + before.toNat := by
  simp only [exactCredit, except_bind_ok_iff, okOr_ok_iff, checkedSub_eq_some, require_ok_iff]
  constructor
  · rintro ⟨_, h, rfl⟩
    exact h
  · exact fun h => ⟨expected, h, rfl⟩

end ProgrammableSolana.Core
