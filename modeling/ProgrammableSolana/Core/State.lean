import ProgrammableSolana.Core.Error

/-! The accounts a Core owns, the events it emits, and the constants that tell the three
Cores apart. -/
namespace ProgrammableSolana.Core

open ProgrammableSolana.Lib ProgrammableSolana.Solana

structure MarketV0 where
  version : UInt8
  bump : UInt8
  initializer : Pubkey
  marketId : Hash
  engineProgram : Pubkey
  engineState : Pubkey
  engineRevision : UInt64
  mintA : Pubkey
  mintB : Pubkey
  feeBps : UInt16
  feePolicyRevision : UInt64
  deriving DecidableEq

structure DomainV0 where
  version : UInt8
  bump : UInt8
  vaultABump : UInt8
  vaultBBump : UInt8
  market : Pubkey
  engineProgram : Pubkey
  engineState : Pubkey
  engineRevision : UInt64
  accountedA : UInt64
  accountedB : UInt64
  deriving DecidableEq

structure FeeLedgerV0 where
  version : UInt8
  bump : UInt8
  feeVaultBump : UInt8
  market : Pubkey
  mintA : Pubkey
  accountedFeeA : UInt64
  deriving DecidableEq

/-- The account types of a Core, told apart by their discriminators. -/
inductive CoreState where
  | market (market : MarketV0)
  | domain (domain : DomainV0)
  | feeLedger (feeLedger : FeeLedgerV0)
  deriving DecidableEq

structure MarketDomainInitializedV0 where
  market : Pubkey
  domain : Pubkey
  engineProgram : Pubkey
  engineState : Pubkey
  engineRevision : UInt64
  mintA : Pubkey
  mintB : Pubkey
  feeLedger : Pubkey
  feeBps : UInt16
  deriving DecidableEq

structure LiquidityDepositedV0 where
  market : Pubkey
  domain : Pubkey
  provider : Pubkey
  mint : Pubkey
  assetIndex : UInt8
  amount : UInt64
  postAccountedBalance : UInt64
  deriving DecidableEq

structure EngineProbeExecutedV0 where
  market : Pubkey
  domain : Pubkey
  engineProgram : Pubkey
  engineState : Pubkey
  user : Pubkey
  mintA : Pubkey
  mintB : Pubkey
  amountIn : UInt64
  amountOut : UInt64
  protocolFee : UInt64
  planDigest : Hash
  engineSequence : UInt64
  postAccountedA : UInt64
  postAccountedB : UInt64
  postAccountedFeeA : UInt64
  deriving DecidableEq

structure EngineGeneratedProbeExecutedV0 where
  market : Pubkey
  domain : Pubkey
  engineProgram : Pubkey
  engineState : Pubkey
  user : Pubkey
  mintA : Pubkey
  mintB : Pubkey
  amountIn : UInt64
  amountOut : UInt64
  protocolFee : UInt64
  requestHash : Hash
  capabilityHash : Hash
  payloadHash : Hash
  settlementHash : Hash
  engineSequence : UInt64
  opaqueAccountCount : UInt8
  postAccountedA : UInt64
  postAccountedB : UInt64
  postAccountedFeeA : UInt64
  deriving DecidableEq

structure SpendAuthorizedV0 where
  userAuthority : Pubkey
  userInput : Pubkey
  mintIn : Pubkey
  spendAuthority : Pubkey
  intentDigest : Hash
  timingMode : UInt8
  authorizationNonce : Hash
  exactTotalDebit : UInt64
  expiresAtSlot : UInt64
  deriving DecidableEq

structure CallbackAuthenticatedProbeExecutedV0 where
  market : Pubkey
  domain : Pubkey
  engineProgram : Pubkey
  engineState : Pubkey
  userAuthority : Pubkey
  userInput : Pubkey
  userOutput : Pubkey
  spendAuthority : Pubkey
  primaryCallback : Pubkey
  commitCallback : Pubkey
  mintA : Pubkey
  mintB : Pubkey
  timingMode : UInt8
  primaryPhase : UInt8
  authorizationNonce : Hash
  amountIn : UInt64
  amountOut : UInt64
  protocolFee : UInt64
  intentDigest : Hash
  authorizedCapabilityHash : Hash
  primaryPhaseCapabilityHash : Hash
  commitPhaseCapabilityHash : Hash
  payloadHash : Hash
  primaryExecutionDigest : Hash
  primaryReceiptDigest : Hash
  settlementDigest : Hash
  commitExecutionDigest : Hash
  commitReceiptDigest : Hash
  expectedEngineSequence : UInt64
  primaryEngineSequence : UInt64
  commitEngineSequence : UInt64
  opaqueAccountCount : UInt8
  postAccountedA : UInt64
  postAccountedB : UInt64
  postAccountedFeeA : UInt64
  deriving DecidableEq

inductive CoreEvent where
  | marketDomainInitialized (event : MarketDomainInitializedV0)
  | liquidityDeposited (event : LiquidityDepositedV0)
  | engineProbeExecuted (event : EngineProbeExecutedV0)
  | engineGeneratedProbeExecuted (event : EngineGeneratedProbeExecutedV0)
  | spendAuthorized (event : SpendAuthorizedV0)
  | callbackAuthenticatedProbeExecuted (event : CallbackAuthenticatedProbeExecutedV0)
  deriving DecidableEq

abbrev Ledger : Type := Solana.Ledger CoreState

abbrev World : Type := Solana.World CoreState CoreEvent

/-- An instruction handler. A failure keeps the world reached so far; the transaction around
it undoes it. -/
abbrev Handler : Type → Type := Exec World Error

def emit (e : CoreEvent) : Handler Unit := Exec.modify fun w => { w with log := w.log ++ [.emitted e] }

/-- `declare_id!` and the seed constants of one Core, and whether the Core counts its own
address among the roles of an instruction. -/
structure Config where
  ID : Pubkey
  marketSeedV0 : List UInt8
  domainSeedV0 : List UInt8
  vaultSeedV0 : List UInt8
  feeLedgerSeedV0 : List UInt8
  feeVaultSeedV0 : List UInt8
  rolesIncludeId : Bool
  ID_ne_token : ID ≠ tokenProgram
  ID_ne_system : ID ≠ systemProgram

end ProgrammableSolana.Core
