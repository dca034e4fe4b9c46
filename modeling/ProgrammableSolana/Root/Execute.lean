import ProgrammableSolana.Core.Initialize
import ProgrammableSolana.Core.Deposit
import ProgrammableSolana.Core.Math
import ProgrammableSolana.Core.Settlement
import ProgrammableSolana.Wire.Root

/-! The authority-kernel Core: its constants and `execute_engine_probe`, where the user names
the output amount and the engine only signs off on the plan. -/
namespace ProgrammableSolana.Root

open ProgrammableSolana.Lib ProgrammableSolana.Solana ProgrammableSolana.Core

/-- `CfBnUaJwALVpd5Dtkt39zsvY9nwNTdrNxDvoxuCtKiR3`. -/
def ID : Pubkey :=
  ⟨[173, 56, 210, 12, 225, 154, 86, 96, 142, 45, 45, 94, 227, 171, 196, 164, 149, 39,
    142, 31, 225, 88, 211, 114, 80, 230, 217, 187, 130, 4, 77, 150], rfl⟩

def config : Config where
  ID := ID
  marketSeedV0 := ascii "market-v0"
  domainSeedV0 := ascii "domain-v0"
  vaultSeedV0 := ascii "vault-v0"
  feeLedgerSeedV0 := ascii "fee-ledger-v0"
  feeVaultSeedV0 := ascii "fee-vault-v0"
  rolesIncludeId := false
  ID_ne_token := by decide
  ID_ne_system := by decide

structure ExecuteEngineProbeV0Args where
  amountIn : UInt64
  amountOut : UInt64
  maxTotalInputDebit : UInt64
  minOutputCredit : UInt64
  maxProtocolFee : UInt64
  expiresAtSlot : UInt64

structure ExecuteEngineProbeV0 extends Envelope where
  user : AccountInfo
  instructionsSysvar : AccountInfo
  remainingAccounts : List AccountInfo

/-- The accounts in the order the instruction lists them. -/
def ExecuteEngineProbeV0.infos (a : ExecuteEngineProbeV0) : List AccountInfo :=
  [a.user, a.market, a.domain, a.feeLedger, a.mintA, a.mintB, a.userSourceA, a.userDestinationB,
    a.vaultA, a.vaultB, a.feeVault, a.engineProgram, a.engineState, a.instructionsSysvar,
    a.tokenProgram] ++ a.remainingAccounts

/-- What the checks before the engine call arrive at. -/
structure ProbePlan where
  protocolFee : UInt64
  totalInputDebit : UInt64
  postAccountedA : UInt64
  postAccountedB : UInt64
  postAccountedFeeA : UInt64
  binding : Wire.Root.PlanBinding
  planDigest : Hash
  engineInstruction : Instruction

section

variable [Crypto]

def loadExecute (L : Ledger) (a : ExecuteEngineProbeV0) : Result EnvelopeData := do
  loadSigner a.user
  let d ← loadEnvelope config L a.toEnvelope
  constrainEnvelope config L a.toEnvelope d (some a.user.key)
  constraintAddress a.instructionsSysvar.key instructionsSysvarId (.anchor .constraintAddress)
  return d

def planBinding (a : ExecuteEngineProbeV0) (d : EnvelopeData) (args : ExecuteEngineProbeV0Args)
    (protocolFee : UInt64) : Wire.Root.PlanBinding where
  coreProgram := ID
  market := a.market.key
  domain := a.domain.key
  engineProgram := a.engineProgram.key
  engineState := a.engineState.key
  userAuthority := a.user.key
  userInput := a.userSourceA.key
  userOutput := a.userDestinationB.key
  mintIn := a.mintA.key
  mintOut := a.mintB.key
  domainInputVault := a.vaultA.key
  domainOutputVault := a.vaultB.key
  protocolFeeVault := a.feeVault.key
  feeLedger := a.feeLedger.key
  tokenProgram := a.tokenProgram.key
  engineRevision := d.market.engineRevision
  feePolicyRevision := d.market.feePolicyRevision
  amountIn := args.amountIn
  amountOut := args.amountOut
  protocolFee := protocolFee
  maxTotalInputDebit := args.maxTotalInputDebit
  minOutputCredit := args.minOutputCredit
  maxProtocolFee := args.maxProtocolFee
  accountedInputBefore := d.domain.accountedA
  accountedOutputBefore := d.domain.accountedB
  accountedFeeBefore := d.feeLedger.accountedFeeA
  expiresAtSlot := args.expiresAtSlot

def engineRequest (a : ExecuteEngineProbeV0) (d : EnvelopeData) (args : ExecuteEngineProbeV0Args)
    (protocolFee : UInt64) (planDigest : Hash) : Wire.Root.EngineRequest where
  planHash := planDigest
  market := a.market.key
  domain := a.domain.key
  engineRevision := d.market.engineRevision
  amountIn := args.amountIn
  amountOut := args.amountOut
  protocolFee := protocolFee
  accountedInputBefore := d.domain.accountedA
  accountedOutputBefore := d.domain.accountedB
  accountedFeeBefore := d.feeLedger.accountedFeeA

/-- The handler's checks on the accounts. -/
def validateAccounts (env : Env config) (L : Ledger) (a : ExecuteEngineProbeV0) (d : EnvelopeData) :
    Result Unit := do
  ensureNoRemainingAccounts a.remainingAccounts
  require (env.stackHeight = transactionLevelStackHeight) (.core .directInvocationRequired)
  ensureDistinctRoles [a.user.key, a.market.key, a.domain.key, a.feeLedger.key, a.mintA.key,
    a.mintB.key, a.userSourceA.key, a.userDestinationB.key, a.vaultA.key, a.vaultB.key,
    a.feeVault.key, a.engineProgram.key, a.engineState.key, a.instructionsSysvar.key,
    a.tokenProgram.key]
  bindEnvelope config L a.toEnvelope d
  require (a.market.isWritable = false ∧ a.mintA.isWritable = false ∧ a.mintB.isWritable = false ∧
    a.engineProgram.isWritable = false ∧ a.instructionsSysvar.isWritable = false ∧
    a.tokenProgram.isWritable = false) (.core .unexpectedWritablePrivilege)
  profileEnvelope a.toEnvelope d (some a.user.key)

/-- The handler's checks on the terms, and the request they lead to. -/
def planExecution (env : Env config) (a : ExecuteEngineProbeV0) (d : EnvelopeData)
    (args : ExecuteEngineProbeV0Args) : Result ProbePlan := do
  require (0 < args.amountIn ∧ 0 < args.amountOut) (.core .zeroAmount)
  require (env.slot ≤ args.expiresAtSlot) (.core .requestExpired)
  require (args.minOutputCredit ≤ args.amountOut) (.core .outputBelowUserMinimum)
  require (args.amountOut ≤ d.domain.accountedB) (.core .insufficientAccountedLiquidity)
  let charge ← chargeInput args.amountIn d.market.feeBps args.maxProtocolFee args.maxTotalInputDebit
  let postAccountedA ← okOr (checkedAdd d.domain.accountedA args.amountIn) (.core .arithmeticOverflow)
  let postAccountedB ← okOr (checkedSub d.domain.accountedB args.amountOut) (.core .arithmeticOverflow)
  let postAccountedFeeA ← okOr (checkedAdd d.feeLedger.accountedFeeA charge.protocolFee)
    (.core .arithmeticOverflow)
  let binding := planBinding a d args charge.protocolFee
  let planDigest ← liftWire .panic (Wire.Root.computePlanHash binding)
  let data ← liftWire .panic
    (Wire.Root.encodeEvaluateInstruction (engineRequest a d args charge.protocolFee planDigest))
  return {
    protocolFee := charge.protocolFee, totalInputDebit := charge.totalInputDebit, postAccountedA,
    postAccountedB, postAccountedFeeA, binding, planDigest,
    engineInstruction := {
      programId := a.engineProgram.key
      accounts := [.new a.engineState.key false, .newReadonly a.instructionsSysvar.key false]
      data } }

/-- The receipt check: set by the engine, in the exact format, for this plan. -/
def acceptReceipt (a : ExecuteEngineProbeV0) (returned : Option (Pubkey × List UInt8))
    (planDigest : Hash) : Result Wire.Root.EngineReceipt := do
  let data ← takeReceipt a.toEnvelope returned
  let receipt ← liftWire (.core .invalidEngineReceipt) (Wire.Root.decodeReceipt data)
  require (receipt.planHash = planDigest) (.core .engineReceiptPlanMismatch)
  return receipt

def ProbePlan.terms (plan : ProbePlan) (args : ExecuteEngineProbeV0Args) : SettleTerms :=
  ⟨args.amountIn, plan.protocolFee, plan.totalInputDebit, args.amountOut⟩

def handleExecuteEngineProbeV0 (env : Env config) (a : ExecuteEngineProbeV0)
    (args : ExecuteEngineProbeV0Args) : Handler Unit := do
  let w ← .get
  let d ← .ofExcept (loadExecute w.ledger a)
  .ofExcept (validateAccounts env w.ledger a d)
  let plan ← .ofExcept (planExecution env a d args)
  (invokeSigned ID env.callee a.infos plan.engineInstruction
    [a.engineState, a.instructionsSysvar] []).mapError .runtime
  let w ← .get
  let receipt ← .ofExcept (acceptReceipt a w.returnData plan.planDigest)
  let _ ← settle config a.infos a.toEnvelope d a.user.key [] (plan.terms args)
  writeAccounted a.toEnvelope d plan.postAccountedA plan.postAccountedB plan.postAccountedFeeA
  emit (.engineProbeExecuted
    { market := a.market.key, domain := a.domain.key, engineProgram := a.engineProgram.key,
      engineState := a.engineState.key, user := a.user.key, mintA := a.mintA.key,
      mintB := a.mintB.key, amountIn := args.amountIn, amountOut := args.amountOut,
      protocolFee := plan.protocolFee, planDigest := plan.planDigest,
      engineSequence := receipt.stateSequence, postAccountedA := plan.postAccountedA,
      postAccountedB := plan.postAccountedB, postAccountedFeeA := plan.postAccountedFeeA })

end

end ProgrammableSolana.Root
