import ProgrammableSolana.Core.Load
import ProgrammableSolana.Solana.Confinement

/-! `deposit`: liquidity moves from a provider into one of the two domain vaults. -/
namespace ProgrammableSolana.Core

open ProgrammableSolana.Lib ProgrammableSolana.Solana

structure DepositV0Args where
  assetIndex : UInt8
  amount : UInt64

structure DepositV0 where
  provider : AccountInfo
  market : AccountInfo
  domain : AccountInfo
  mint : AccountInfo
  providerSource : AccountInfo
  domainVault : AccountInfo
  tokenProgram : AccountInfo
  remainingAccounts : List AccountInfo

/-- The accounts in the order the instruction lists them. -/
def DepositV0.infos (a : DepositV0) : List AccountInfo :=
  [a.provider, a.market, a.domain, a.mint, a.providerSource, a.domainVault, a.tokenProgram] ++
    a.remainingAccounts

/-- The typed accounts of a deposit, as loaded. -/
structure DepositData where
  market : MarketV0
  domain : DomainV0
  mint : Mint
  providerSource : TokenAccount
  domainVault : TokenAccount

/-- What the asset index selects: the mint, the vault bump and the accounted balance. -/
structure DepositAsset where
  expectedMint : Pubkey
  vaultBump : UInt8
  accountedBefore : UInt64

section

variable [Crypto] (cfg : Config)

def loadDeposit (L : Ledger) (a : DepositV0) : Result DepositData := do
  loadSigner a.provider
  let market ← loadMarket L cfg.ID a.market.key
  let domain ← loadDomain L cfg.ID a.domain.key
  let mint ← loadMintAccount L a.mint.key
  let providerSource ← loadTokenAccount L a.providerSource.key
  let domainVault ← loadTokenAccount L a.domainVault.key
  loadTokenProgram L a.tokenProgram
  constraintSeeds cfg a.market.key
    [cfg.marketSeedV0, market.initializer.toList, market.marketId.toList, [market.bump]]
  constraintMut a.domain
  constraintSeeds cfg a.domain.key [cfg.domainSeedV0, a.market.key.toList, [domain.bump]]
  constraintMut a.providerSource
  constraintMut a.domainVault
  return ⟨market, domain, mint, providerSource, domainVault⟩

def depositAsset (d : DepositData) (assetIndex : UInt8) : Result DepositAsset :=
  if assetIndex = assetAIndexV0 then
    .ok ⟨d.market.mintA, d.domain.vaultABump, d.domain.accountedA⟩
  else if assetIndex = assetBIndexV0 then
    .ok ⟨d.market.mintB, d.domain.vaultBBump, d.domain.accountedB⟩
  else
    .error (.core .unsupportedAssetIndex)

/-- The checks before the transfer; the result is the accounted balance to store. -/
def validateDeposit (a : DepositV0) (d : DepositData) (args : DepositV0Args) : Result UInt64 := do
  ensureNoRemainingAccounts a.remainingAccounts
  require (0 < args.amount) (.core .zeroAmount)
  ensureDistinctRoles ([a.provider.key, a.market.key, a.domain.key, a.mint.key,
    a.providerSource.key, a.domainVault.key, a.tokenProgram.key] ++
    if cfg.rolesIncludeId then [cfg.ID] else [])
  validateMarketDomain cfg a.market.key d.market a.domain.key d.domain
  validateClassicMint a.mint.key d.mint
  require (a.market.isWritable = false ∧ a.mint.isWritable = false ∧
    a.tokenProgram.isWritable = false) (.core .unexpectedWritablePrivilege)
  let asset ← depositAsset d args.assetIndex
  require (a.mint.key = asset.expectedMint) (.core .invalidTokenMint)
  let expectedVault ← canonicalDomainVault cfg a.domain.key args.assetIndex asset.vaultBump
  require (a.domainVault.key = expectedVault) (.core .invalidDomainVault)
  validateProtectedTokenAccount d.providerSource asset.expectedMint a.provider.key
  validateProtectedTokenAccount d.domainVault asset.expectedMint a.domain.key
  requireRawCoversAccounted d.domainVault.amount asset.accountedBefore
  okOr (checkedAdd asset.accountedBefore args.amount) (.core .arithmeticOverflow)

/-- The domain with one accounted balance replaced. -/
def storeAccounted (domain : DomainV0) (assetIndex : UInt8) (accounted : UInt64) : Result DomainV0 :=
  if assetIndex = assetAIndexV0 then .ok { domain with accountedA := accounted }
  else if assetIndex = assetBIndexV0 then .ok { domain with accountedB := accounted }
  else .error (.core .unsupportedAssetIndex)

/-- The two balances after the transfer moved exactly `amount`. -/
def checkDeposited (L : Ledger) (a : DepositV0) (d : DepositData) (amount : UInt64) : Result Unit := do
  let sourceAfter ← loadTokenAccount L a.providerSource.key
  let vaultAfter ← loadTokenAccount L a.domainVault.key
  exactDebit d.providerSource.amount sourceAfter.amount amount .unexpectedSourceDebit
  exactCredit d.domainVault.amount vaultAfter.amount amount .unexpectedVaultCredit

def handleDepositV0 (a : DepositV0) (args : DepositV0Args) : Handler Unit := do
  let w ← .get
  let d ← .ofExcept (loadDeposit cfg w.ledger a)
  let accountedAfter ← .ofExcept (validateDeposit cfg a d args)
  (tokenInvoke a.infos [] (.transferChecked a.providerSource.key a.mint.key a.domainVault.key
    a.provider.key args.amount d.mint.decimals) (some a.provider.key)).mapError .runtime
  let w ← .get
  .ofExcept (checkDeposited w.ledger a d args.amount)
  let domain ← .ofExcept (storeAccounted d.domain args.assetIndex accountedAfter)
  .modify fun w => { w with ledger := w.ledger.setState a.domain.key (.domain domain) }
  emit (.liquidityDeposited
    { market := a.market.key, domain := a.domain.key, provider := a.provider.key, mint := a.mint.key,
      assetIndex := args.assetIndex, amount := args.amount, postAccountedBalance := accountedAfter })

end

end ProgrammableSolana.Core
