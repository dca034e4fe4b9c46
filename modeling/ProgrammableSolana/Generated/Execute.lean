import ProgrammableSolana.Core.Initialize
import ProgrammableSolana.Core.Deposit
import ProgrammableSolana.Core.Math
import ProgrammableSolana.Core.Opaque
import ProgrammableSolana.Core.Settlement
import ProgrammableSolana.Wire.Generated

/-! The generated-settlement Core: its constants and `execute_engine_generated_probe`, where the
engine names the output amount. -/
namespace ProgrammableSolana.Generated

open ProgrammableSolana.Lib ProgrammableSolana.Solana ProgrammableSolana.Core

/-- `EJKx7XFp6CZQuAHD6AC14g7nUKeczJMr2TX9XRUEjs36`. -/
def ID : Pubkey := Wire.Generated.coreProgramId

def config : Config where
  ID := ID
  marketSeedV0 := ascii "generated-market-v0"
  domainSeedV0 := ascii "generated-domain-v0"
  vaultSeedV0 := ascii "generated-vault-v0"
  feeLedgerSeedV0 := ascii "generated-fee-ledger-v0"
  feeVaultSeedV0 := ascii "generated-fee-vault-v0"
  rolesIncludeId := true
  ID_ne_token := by decide
  ID_ne_system := by decide

def settlementHashDomainV0 : List UInt8 := ascii "programmable:generated-settlement:settlement:v0"

structure ExecuteEngineGeneratedProbeV0Args where
  amountIn : UInt64
  maxTotalInputDebit : UInt64
  minOutputCredit : UInt64
  maxProtocolFee : UInt64
  expiresAtSlot : UInt64
  expectedCapabilityHash : Hash
  opaquePayload : List UInt8

structure ExecuteEngineGeneratedProbeV0 extends Envelope where
  user : AccountInfo
  instructionsSysvar : AccountInfo
  remainingAccounts : List AccountInfo

namespace ExecuteEngineGeneratedProbeV0

variable (a : ExecuteEngineGeneratedProbeV0)

/-- The accounts in the order the instruction lists them. -/
def infos : List AccountInfo :=
  [a.user, a.market, a.domain, a.feeLedger, a.mintA, a.mintB, a.userSourceA, a.userDestinationB,
    a.vaultA, a.vaultB, a.feeVault, a.engineProgram, a.engineState, a.instructionsSysvar,
    a.tokenProgram] ++ a.remainingAccounts

def fixedEnvelopeKeys : List Pubkey :=
  [a.user.key, a.market.key, a.domain.key, a.feeLedger.key, a.mintA.key, a.mintB.key,
    a.userSourceA.key, a.userDestinationB.key, a.vaultA.key, a.vaultB.key, a.feeVault.key,
    a.engineProgram.key, a.engineState.key, a.instructionsSysvar.key, a.tokenProgram.key, ID]

end ExecuteEngineGeneratedProbeV0

/-- The engine call as the checks before it set it up. -/
structure GeneratedCall where
  protocolFee : UInt64
  totalInputDebit : UInt64
  postAccountedA : UInt64
  postAccountedFeeA : UInt64
  opaqueDescriptors : List Wire.CapabilityDescriptor
  capabilityHash : Hash
  payloadHash : Hash
  binding : Wire.Generated.RequestBinding
  requestHash : Hash
  opaqueAccountCount : UInt16
  engineInstruction : Instruction
  engineInfos : List AccountInfo

structure AcceptedEnginePlan where
  amountOut : UInt64
  protocolFee : UInt64
  totalInputDebit : UInt64
  requestHash : Hash
  capabilityHash : Hash
  payloadHash : Hash
  settlementHash : Hash
  engineSequence : UInt64
  opaqueAccountCount : UInt8
  postAccountedA : UInt64
  postAccountedB : UInt64
  postAccountedFeeA : UInt64

section

variable [Crypto]

def loadExecute (L : Ledger) (a : ExecuteEngineGeneratedProbeV0) : Result EnvelopeData := do
  loadSigner a.user
  let d ← loadEnvelope config L a.toEnvelope
  constrainEnvelope config L a.toEnvelope d (some a.user.key)
  constraintAddress a.instructionsSysvar.key instructionsSysvarId (.anchor .constraintAddress)
  return d

/-- The handler's checks on the accounts. -/
def validateAccounts (env : Env config) (L : Ledger) (a : ExecuteEngineGeneratedProbeV0)
    (d : EnvelopeData) (args : ExecuteEngineGeneratedProbeV0Args) : Result Unit := do
  require (env.stackHeight = transactionLevelStackHeight) (.core .directInvocationRequired)
  validateOpaquePayload args.opaquePayload
  ensureDistinctRoles a.fixedEnvelopeKeys
  bindEnvelope config L a.toEnvelope d
  require (a.engineProgram.isSigner = false ∧ a.engineState.isSigner = false ∧
    a.instructionsSysvar.isSigner = false) (.core .unexpectedSignerPrivilege)
  require (a.market.isSigner = false ∧ a.domain.isSigner = false ∧ a.feeLedger.isSigner = false ∧
    a.mintA.isSigner = false ∧ a.mintB.isSigner = false ∧ a.userSourceA.isSigner = false ∧
    a.userDestinationB.isSigner = false ∧ a.vaultA.isSigner = false ∧ a.vaultB.isSigner = false ∧
    a.feeVault.isSigner = false ∧ a.tokenProgram.isSigner = false) (.core .unexpectedSignerPrivilege)
  require (a.engineState.isWritable = true) (.core .unexpectedWritablePrivilege)
  require (a.market.isWritable = false ∧ a.mintA.isWritable = false ∧ a.mintB.isWritable = false ∧
    a.engineProgram.isWritable = false ∧ a.instructionsSysvar.isWritable = false ∧
    a.tokenProgram.isWritable = false) (.core .unexpectedWritablePrivilege)
  profileEnvelope a.toEnvelope d (some a.user.key)

/-- The engine state and the sysvar, the first two capabilities of every call. -/
def prefixDescriptors (L : Ledger) (a : ExecuteEngineGeneratedProbeV0) :
    List Wire.CapabilityDescriptor :=
  [{ key := a.engineState.key, owner := (L a.engineState.key).owner, isWritable := true,
     isSigner := false, isExecutable := false },
   { key := a.instructionsSysvar.key, owner := (L a.instructionsSysvar.key).owner,
     isWritable := false, isSigner := false, isExecutable := false }]

def requestBinding (a : ExecuteEngineGeneratedProbeV0) (d : EnvelopeData)
    (args : ExecuteEngineGeneratedProbeV0Args) (protocolFee : UInt64)
    (capabilityHash payloadHash : Hash) : Wire.Generated.RequestBinding where
  coreProgram := ID
  market := a.market.key
  domain := a.domain.key
  engineProgram := a.engineProgram.key
  engineState := a.engineState.key
  userAuthority := a.user.key
  userInput := a.userSourceA.key
  userOutput := a.userDestinationB.key
  mintIn := a.mintA.key
  mintOut := a.mintB.key
  domainInputVault := a.vaultA.key
  domainOutputVault := a.vaultB.key
  protocolFeeVault := a.feeVault.key
  feeLedger := a.feeLedger.key
  tokenProgram := a.tokenProgram.key
  engineRevision := d.market.engineRevision
  feePolicyRevision := d.market.feePolicyRevision
  amountIn := args.amountIn
  protocolFee := protocolFee
  maxTotalInputDebit := args.maxTotalInputDebit
  minOutputCredit := args.minOutputCredit
  maxProtocolFee := args.maxProtocolFee
  accountedInputBefore := d.domain.accountedA
  accountedOutputBefore := d.domain.accountedB
  accountedFeeBefore := d.feeLedger.accountedFeeA
  expiresAtSlot := args.expiresAtSlot
  capabilityHash := capabilityHash
  payloadHash := payloadHash

def engineMetas (a : ExecuteEngineGeneratedProbeV0) (ds : List Wire.CapabilityDescriptor) :
    List AccountMeta :=
  [.new a.engineState.key false, .newReadonly a.instructionsSysvar.key false] ++ ds.map opaqueMeta

/-- The handler's checks on the terms, and the call they lead to. -/
def planExecution (env : Env config) (L : Ledger) (a : ExecuteEngineGeneratedProbeV0)
    (d : EnvelopeData) (args : ExecuteEngineGeneratedProbeV0Args) : Result GeneratedCall := do
  require (0 < args.amountIn) (.core .zeroAmount)
  require (env.slot ≤ args.expiresAtSlot) (.core .requestExpired)
  let charge ← chargeInput args.amountIn d.market.feeBps args.maxProtocolFee args.maxTotalInputDebit
  require (charge.totalInputDebit ≤ d.userSourceA.amount) (.core .insufficientUserSourceBalance)
  require (args.minOutputCredit ≤ d.domain.accountedB) (.core .insufficientAccountedLiquidity)
  let postAccountedA ← okOr (checkedAdd d.domain.accountedA args.amountIn) (.core .arithmeticOverflow)
  let postAccountedFeeA ← okOr (checkedAdd d.feeLedger.accountedFeeA charge.protocolFee)
    (.core .arithmeticOverflow)
  let opaqueAccounts := a.remainingAccounts.map (accountView L)
  let opaqueDescriptors ← validateOpaqueCapabilities config opaqueAccounts a.fixedEnvelopeKeys
  let capabilityHash ← liftWire (.core .invalidWireEncoding)
    (Wire.Generated.computeCapabilityHash a.engineProgram.key
      (prefixDescriptors L a ++ opaqueDescriptors))
  require (capabilityHash = args.expectedCapabilityHash) (.core .capabilityHashExpectationMismatch)
  let payloadHash ← liftWire (.core .invalidWireEncoding)
    (Wire.Generated.computePayloadHash args.opaquePayload)
  let binding := requestBinding a d args charge.protocolFee capabilityHash payloadHash
  let requestHash ← liftWire .panic (Wire.Generated.computeRequestHash binding)
  let opaqueAccountCount ← opaqueCount a.remainingAccounts
  let engineRequest ← liftWire (.core .invalidWireEncoding)
    (Wire.Generated.EngineRequest.new requestHash a.market.key a.domain.key d.market.engineRevision
      args.amountIn d.domain.accountedA d.domain.accountedB opaqueAccountCount capabilityHash
      args.opaquePayload)
  let data ← liftWire (.core .invalidWireEncoding)
    (Wire.Generated.encodeEvaluateInstruction engineRequest)
  let opaqueInfos ← opaqueDescriptors.mapM (normalizedInfo opaqueAccounts)
  return {
    protocolFee := charge.protocolFee, totalInputDebit := charge.totalInputDebit, postAccountedA,
    postAccountedFeeA, opaqueDescriptors, capabilityHash, payloadHash, binding, requestHash,
    opaqueAccountCount
    engineInstruction := {
      programId := a.engineProgram.key, accounts := engineMetas a opaqueDescriptors, data }
    engineInfos := [a.engineState, a.instructionsSysvar] ++ opaqueInfos }

/-- The receipt check: set by the engine, in the exact format, for this request, with an output
between the user's minimum and the accounted liquidity. -/
def acceptReceipt (a : ExecuteEngineGeneratedProbeV0) (d : EnvelopeData)
    (args : ExecuteEngineGeneratedProbeV0Args) (requestHash : Hash)
    (returned : Option (Pubkey × List UInt8)) : Result Wire.Generated.EngineReceipt := do
  let data ← takeReceipt a.toEnvelope returned
  let receipt ← liftWire (.core .invalidEngineReceipt) (Wire.Generated.decodeReceipt data)
  require (receipt.requestHash = requestHash) (.core .engineReceiptRequestMismatch)
  require (0 < receipt.amountOut) (.core .zeroAmount)
  require (args.minOutputCredit ≤ receipt.amountOut) (.core .outputBelowUserMinimum)
  require (receipt.amountOut ≤ d.domain.accountedB) (.core .insufficientAccountedLiquidity)
  return receipt

def settlementHash (call : GeneratedCall) (receipt : Wire.Generated.EngineReceipt) : Hash :=
  hashv [settlementHashDomainV0, call.requestHash.toList, (u64LeBytes receipt.amountOut).toList,
    (u64LeBytes call.protocolFee).toList, (u64LeBytes receipt.stateSequence).toList]

def acceptPlan (d : EnvelopeData) (call : GeneratedCall) (receipt : Wire.Generated.EngineReceipt) :
    Result AcceptedEnginePlan := do
  let postAccountedB ← okOr (checkedSub d.domain.accountedB receipt.amountOut)
    (.core .arithmeticOverflow)
  let opaqueAccountCount ← okOr
    (if call.opaqueAccountCount.toNat < 2 ^ 8 then some call.opaqueAccountCount.toUInt8 else none)
    (.core .integerConversionFailed)
  return {
    amountOut := receipt.amountOut, protocolFee := call.protocolFee,
    totalInputDebit := call.totalInputDebit, requestHash := call.requestHash,
    capabilityHash := call.capabilityHash, payloadHash := call.payloadHash,
    settlementHash := settlementHash call receipt, engineSequence := receipt.stateSequence,
    opaqueAccountCount, postAccountedA := call.postAccountedA, postAccountedB,
    postAccountedFeeA := call.postAccountedFeeA }

def AcceptedEnginePlan.terms (plan : AcceptedEnginePlan) (args : ExecuteEngineGeneratedProbeV0Args) :
    SettleTerms :=
  ⟨args.amountIn, plan.protocolFee, plan.totalInputDebit, plan.amountOut⟩

def settleEngineGeneratedProbe (a : ExecuteEngineGeneratedProbeV0) (d : EnvelopeData)
    (args : ExecuteEngineGeneratedProbeV0Args) (plan : AcceptedEnginePlan) : Handler Unit := do
  let _ ← settle config a.infos a.toEnvelope d a.user.key [] (plan.terms args)
  writeAccounted a.toEnvelope d plan.postAccountedA plan.postAccountedB plan.postAccountedFeeA
  emit (.engineGeneratedProbeExecuted
    { market := a.market.key, domain := a.domain.key, engineProgram := a.engineProgram.key,
      engineState := a.engineState.key, user := a.user.key, mintA := a.mintA.key,
      mintB := a.mintB.key, amountIn := args.amountIn, amountOut := plan.amountOut,
      protocolFee := plan.protocolFee, requestHash := plan.requestHash,
      capabilityHash := plan.capabilityHash, payloadHash := plan.payloadHash,
      settlementHash := plan.settlementHash, engineSequence := plan.engineSequence,
      opaqueAccountCount := plan.opaqueAccountCount, postAccountedA := plan.postAccountedA,
      postAccountedB := plan.postAccountedB, postAccountedFeeA := plan.postAccountedFeeA })

def handleExecuteEngineGeneratedProbeV0 (env : Env config) (a : ExecuteEngineGeneratedProbeV0)
    (args : ExecuteEngineGeneratedProbeV0Args) : Handler Unit := do
  let w ← .get
  let d ← .ofExcept (loadExecute w.ledger a)
  .ofExcept (validateAccounts env w.ledger a d args)
  let call ← .ofExcept (planExecution env w.ledger a d args)
  (invokeSigned ID env.callee a.infos call.engineInstruction call.engineInfos []).mapError .runtime
  let w ← .get
  let receipt ← .ofExcept (acceptReceipt a d args call.requestHash w.returnData)
  let plan ← .ofExcept (acceptPlan d call receipt)
  settleEngineGeneratedProbe a d args plan

end

end ProgrammableSolana.Generated
