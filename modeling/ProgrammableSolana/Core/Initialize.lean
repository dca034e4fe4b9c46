import ProgrammableSolana.Core.Load
import ProgrammableSolana.Solana.Confinement

/-! `initialize_market_domain`: a market with its domain, its fee ledger and three vaults. -/
namespace ProgrammableSolana.Core

open ProgrammableSolana.Lib ProgrammableSolana.Solana

structure InitializeMarketDomainV0Args where
  marketId : Hash
  engineRevision : UInt64

structure InitializeMarketDomainV0 where
  initializer : AccountInfo
  market : AccountInfo
  domain : AccountInfo
  feeLedger : AccountInfo
  mintA : AccountInfo
  mintB : AccountInfo
  vaultA : AccountInfo
  vaultB : AccountInfo
  feeVault : AccountInfo
  engineProgram : AccountInfo
  engineState : AccountInfo
  tokenProgram : AccountInfo
  systemProgram : AccountInfo
  remainingAccounts : List AccountInfo

namespace InitializeMarketDomainV0

/-- The accounts in the order the instruction lists them. -/
def infos (a : InitializeMarketDomainV0) : List AccountInfo :=
  [a.initializer, a.market, a.domain, a.feeLedger, a.mintA, a.mintB, a.vaultA, a.vaultB, a.feeVault,
    a.engineProgram, a.engineState, a.tokenProgram, a.systemProgram] ++ a.remainingAccounts

end InitializeMarketDomainV0

/-- `8 + MarketV0::INIT_SPACE`. -/
def marketSpace : ℕ := 8 + 212

/-- `8 + DomainV0::INIT_SPACE`. -/
def domainSpace : ℕ := 8 + 124

/-- `8 + FeeLedgerV0::INIT_SPACE`. -/
def feeLedgerSpace : ℕ := 8 + 75

def tokenAccountSpace : ℕ := 165

/-- The rent-exempt minimum of a token account, what a native one keeps back. -/
def tokenAccountRent : UInt64 := 2039280

/-- The System program's `create_account`, signed by the new address itself. -/
def createAccount (info : AccountInfo) (owner : Pubkey) (space : ℕ) : Handler Unit := do
  .ensure (info.isWritable = true) (.runtime .privilegeEscalation)
  let w ← .get
  .ensure (w.ledger info.key).Unallocated (.anchor .accountAlreadyInUse)
  .modify fun w => { w with
    ledger := w.ledger.assign info.key owner (.raw (List.replicate space 0)) }

section

variable [Crypto] (cfg : Config)

/-- `init, seeds = [..], bump`: creates the account at its derived address. -/
def initPda (info : AccountInfo) (seeds : List (List UInt8)) (owner : Pubkey) (space : ℕ) :
    Handler UInt8 := do
  let (address, bump) ← .ofExcept (okOr (findProgramAddress seeds cfg.ID) .panic)
  .ensure (info.key = address) (.anchor .constraintSeeds)
  createAccount info owner space
  return bump

/-- `init` of a token account: created, then initialised by the Token program. -/
def initTokenAccount (caller : List AccountInfo) (info : AccountInfo) (seeds : List (List UInt8))
    (mint authority : Pubkey) : Handler UInt8 := do
  let bump ← initPda cfg info seeds tokenProgram tokenAccountSpace
  (tokenInvoke caller [] (.initializeAccount info.key mint authority 0 tokenAccountRent) none).mapError
    .runtime
  return bump

structure InitializeMarketDomainV0Bumps where
  market : UInt8
  domain : UInt8
  feeLedger : UInt8
  vaultA : UInt8
  vaultB : UInt8
  feeVault : UInt8

/-- The `init` accounts, in the order of the accounts struct. -/
def initAccounts (a : InitializeMarketDomainV0) (args : InitializeMarketDomainV0Args) :
    Handler InitializeMarketDomainV0Bumps := do
  let market ← initPda cfg a.market
    [cfg.marketSeedV0, a.initializer.key.toList, args.marketId.toList] cfg.ID marketSpace
  let domain ← initPda cfg a.domain [cfg.domainSeedV0, a.market.key.toList] cfg.ID domainSpace
  let feeLedger ← initPda cfg a.feeLedger
    [cfg.feeLedgerSeedV0, a.market.key.toList, a.mintA.key.toList] cfg.ID feeLedgerSpace
  let vaultA ← initTokenAccount cfg a.infos a.vaultA
    [cfg.vaultSeedV0, a.domain.key.toList, [assetAIndexV0]] a.mintA.key a.domain.key
  let vaultB ← initTokenAccount cfg a.infos a.vaultB
    [cfg.vaultSeedV0, a.domain.key.toList, [assetBIndexV0]] a.mintB.key a.domain.key
  let feeVault ← initTokenAccount cfg a.infos a.feeVault
    [cfg.feeVaultSeedV0, a.feeLedger.key.toList] a.mintA.key a.feeLedger.key
  return ⟨market, domain, feeLedger, vaultA, vaultB, feeVault⟩

/-- What the framework checks before it creates anything, and the two mints it loads. -/
def loadInitialize (L : Ledger) (a : InitializeMarketDomainV0) : Result (Mint × Mint) := do
  loadSigner a.initializer
  let mintA ← loadMintAccount L a.mintA.key
  let mintB ← loadMintAccount L a.mintB.key
  loadTokenProgram L a.tokenProgram
  require (a.systemProgram.key = systemProgram) (.anchor .invalidProgramId)
  require ((L a.systemProgram.key).executable = true) (.anchor .invalidProgramExecutable)
  return (mintA, mintB)

/-- The checks of the handler, on the accounts as they were loaded. -/
def validateInitialize (L : Ledger) (a : InitializeMarketDomainV0)
    (args : InitializeMarketDomainV0Args) (mintA mintB : Mint) : Result Unit := do
  ensureNoRemainingAccounts a.remainingAccounts
  ensureDistinctRoles ([a.initializer.key, a.market.key, a.domain.key, a.feeLedger.key, a.mintA.key,
    a.mintB.key, a.vaultA.key, a.vaultB.key, a.feeVault.key, a.engineProgram.key, a.engineState.key,
    a.tokenProgram.key, a.systemProgram.key] ++ if cfg.rolesIncludeId then [cfg.ID] else [])
  require (a.mintA.key ≠ a.mintB.key) (.core .identicalMints)
  require (args.engineRevision ≠ 0) (.core .invalidEngineRevision)
  validateClassicMint a.mintA.key mintA
  validateClassicMint a.mintB.key mintB
  require ((L a.engineProgram.key).executable = true) (.core .engineProgramNotExecutable)
  require (a.engineProgram.isWritable = false) (.core .unexpectedWritablePrivilege)
  require (a.engineProgram.key ≠ cfg.ID) (.core .coreCannotBeEngine)
  require ((L a.engineState.key).executable = false) (.core .engineStateExecutable)
  require ((L a.engineState.key).owner = a.engineProgram.key) (.core .invalidEngineStateOwner)
  require (a.mintA.isWritable = false ∧ a.mintB.isWritable = false ∧
    a.tokenProgram.isWritable = false ∧ a.systemProgram.isWritable = false)
    (.core .unexpectedWritablePrivilege)

def newMarket (a : InitializeMarketDomainV0) (args : InitializeMarketDomainV0Args)
    (bumps : InitializeMarketDomainV0Bumps) : MarketV0 where
  version := experimentVersionV0
  bump := bumps.market
  initializer := a.initializer.key
  marketId := args.marketId
  engineProgram := a.engineProgram.key
  engineState := a.engineState.key
  engineRevision := args.engineRevision
  mintA := a.mintA.key
  mintB := a.mintB.key
  feeBps := protocolFeeBpsV0
  feePolicyRevision := feePolicyRevisionV0

def newDomain (a : InitializeMarketDomainV0) (args : InitializeMarketDomainV0Args)
    (bumps : InitializeMarketDomainV0Bumps) : DomainV0 where
  version := experimentVersionV0
  bump := bumps.domain
  vaultABump := bumps.vaultA
  vaultBBump := bumps.vaultB
  market := a.market.key
  engineProgram := a.engineProgram.key
  engineState := a.engineState.key
  engineRevision := args.engineRevision
  accountedA := 0
  accountedB := 0

def newFeeLedger (a : InitializeMarketDomainV0) (bumps : InitializeMarketDomainV0Bumps) :
    FeeLedgerV0 where
  version := experimentVersionV0
  bump := bumps.feeLedger
  feeVaultBump := bumps.feeVault
  market := a.market.key
  mintA := a.mintA.key
  accountedFeeA := 0

/-- `set_inner`, followed by the write-back at exit. -/
def writeState (key : Pubkey) (s : CoreState) : Handler Unit :=
  .modify fun w => { w with ledger := w.ledger.setState key s }

def handleInitializeMarketDomainV0 (a : InitializeMarketDomainV0)
    (args : InitializeMarketDomainV0Args) : Handler Unit := do
  let w ← .get
  let (mintA, mintB) ← .ofExcept (loadInitialize w.ledger a)
  let bumps ← initAccounts cfg a args
  .ofExcept (constraintMut a.initializer)
  .ofExcept (validateInitialize cfg w.ledger a args mintA mintB)
  writeState a.market.key (.market (newMarket a args bumps))
  writeState a.domain.key (.domain (newDomain a args bumps))
  writeState a.feeLedger.key (.feeLedger (newFeeLedger a bumps))
  emit (.marketDomainInitialized
    { market := a.market.key, domain := a.domain.key, engineProgram := a.engineProgram.key,
      engineState := a.engineState.key, engineRevision := args.engineRevision,
      mintA := a.mintA.key, mintB := a.mintB.key, feeLedger := a.feeLedger.key,
      feeBps := protocolFeeBpsV0 })

end

end ProgrammableSolana.Core
