import ProgrammableSolana.Core.Math
import ProgrammableSolana.Core.Opaque
import ProgrammableSolana.Core.Settlement
import ProgrammableSolana.Routed.Authorize

/-! `execute_callback_authenticated_probe` of the routed Core: anyone may submit it, the engine is
called back with the signature of a phase-bound address, and in the two-phase mode once more after
the tokens have moved. -/
namespace ProgrammableSolana.Routed

open ProgrammableSolana.Lib ProgrammableSolana.Solana ProgrammableSolana.Core
open ProgrammableSolana.Wire.Routed (timingSingle timingPrepareCommit phaseTransition phasePrepare
  phaseCommit)

structure ExecuteCallbackAuthenticatedProbeV0Args where
  amountIn : UInt64
  maxTotalInputDebit : UInt64
  minOutputCredit : UInt64
  maxProtocolFee : UInt64
  expiresAtSlot : UInt64
  authorizationNonce : Hash
  expectedEngineSequence : UInt64
  timingMode : UInt8
  expectedCapabilityHash : Hash
  opaquePayload : List UInt8

structure ExecuteCallbackAuthenticatedProbeV0 extends Envelope where
  spendAuthority : AccountInfo
  primaryCallback : AccountInfo
  commitCallback : AccountInfo
  remainingAccounts : List AccountInfo

namespace ExecuteCallbackAuthenticatedProbeV0

variable (a : ExecuteCallbackAuthenticatedProbeV0)

/-- The accounts in the order the instruction lists them. -/
def infos : List AccountInfo :=
  [a.market, a.domain, a.feeLedger, a.mintA, a.mintB, a.userSourceA, a.userDestinationB, a.vaultA,
    a.vaultB, a.feeVault, a.engineProgram, a.engineState, a.spendAuthority, a.primaryCallback,
    a.commitCallback, a.tokenProgram] ++ a.remainingAccounts

def fixedEnvelopeKeys : List Pubkey :=
  [a.market.key, a.domain.key, a.feeLedger.key, a.mintA.key, a.mintB.key, a.userSourceA.key,
    a.userDestinationB.key, a.vaultA.key, a.vaultB.key, a.feeVault.key, a.engineProgram.key,
    a.engineState.key, a.spendAuthority.key, a.primaryCallback.key, a.commitCallback.key,
    a.tokenProgram.key, ID]

end ExecuteCallbackAuthenticatedProbeV0

structure AcceptedSettlement where
  protocolFee : UInt64
  totalInputDebit : UInt64
  amountOut : UInt64
  postAccountedA : UInt64
  postAccountedB : UInt64
  postAccountedFeeA : UInt64

structure CallbackPda where
  key : Pubkey
  bump : UInt8

inductive CapabilityMode where
  | authorized
  | readOnly
  deriving DecidableEq

/-- The intent of an execution, as the checks before the first engine call establish it. -/
structure AuthenticatedIntent where
  protocolFee : UInt64
  totalInputDebit : UInt64
  opaqueDescriptors : List Wire.CapabilityDescriptor
  authorizedCapabilityHash : Hash
  payloadHash : Hash
  intentDigest : Hash
  spendAuthority : Pubkey
  spendBump : UInt8
  primaryCallback : CallbackPda
  commitCallback : CallbackPda

/-- What stands when the engine is first called. -/
structure PreparedExecution where
  d : EnvelopeData
  phase : UInt8
  intent : AuthenticatedIntent
  primaryCapabilityHash : Hash
  primaryRequest : Wire.Routed.EngineRequest

/-- What the second engine call adds to the record of an execution. -/
structure CommitOutcome where
  phaseCapabilityHash : Hash
  executionDigest : Hash
  receiptDigest : Hash
  engineSequence : UInt64

def primaryPhase (timingMode : UInt8) : Result UInt8 :=
  if timingMode = timingSingle then .ok phaseTransition
  else if timingMode = timingPrepareCommit then .ok phasePrepare
  else .error (.core .unsupportedTimingMode)

def capabilityDescriptors (L : Ledger) (engineState : AccountInfo)
    (opaqueDescriptors : List Wire.CapabilityDescriptor) (mode : CapabilityMode) :
    List Wire.CapabilityDescriptor :=
  let isWritable := mode = .authorized
  { key := engineState.key, owner := (L engineState.key).owner, isWritable, isSigner := false,
    isExecutable := false } ::
    opaqueDescriptors.map fun d => if isWritable then d else { d with
      isWritable := false, isSigner := false }

def primaryMode (phase : UInt8) : CapabilityMode :=
  if phase = phasePrepare then .readOnly else .authorized

def boundIntent (a : ExecuteCallbackAuthenticatedProbeV0) (d : EnvelopeData)
    (args : ExecuteCallbackAuthenticatedProbeV0Args) (protocolFee : UInt64)
    (authorizedCapabilityHash payloadHash : Hash) : Wire.Routed.IntentBinding where
  timingMode := args.timingMode
  coreProgram := ID
  market := a.market.key
  domain := a.domain.key
  engineProgram := a.engineProgram.key
  engineState := a.engineState.key
  userAuthority := d.userSourceA.owner
  userInput := a.userSourceA.key
  userOutput := a.userDestinationB.key
  mintIn := a.mintA.key
  mintOut := a.mintB.key
  domainInputVault := a.vaultA.key
  domainOutputVault := a.vaultB.key
  protocolFeeVault := a.feeVault.key
  feeLedger := a.feeLedger.key
  tokenProgram := a.tokenProgram.key
  engineRevision := d.market.engineRevision
  feePolicyRevision := d.market.feePolicyRevision
  amountIn := args.amountIn
  protocolFee := protocolFee
  maxTotalInputDebit := args.maxTotalInputDebit
  minOutputCredit := args.minOutputCredit
  maxProtocolFee := args.maxProtocolFee
  expiresAtSlot := args.expiresAtSlot
  authorizationNonce := args.authorizationNonce
  authorizedCapabilityHash := authorizedCapabilityHash
  payloadHash := payloadHash

/-- The seeds of a callback address, without the bump. -/
def callbackSeeds (engineProgram engineState market domain : Pubkey) (intentDigest : Hash)
    (phase : UInt8) : List (List UInt8) :=
  [callbackAuthoritySeedV0, engineProgram.toList, engineState.toList, market.toList, domain.toList,
    intentDigest.toList, [phase]]

def ExecuteCallbackAuthenticatedProbeV0.callbackSeeds (a : ExecuteCallbackAuthenticatedProbeV0)
    (intentDigest : Hash) (phase : UInt8) : List (List UInt8) :=
  Routed.callbackSeeds a.engineProgram.key a.engineState.key a.market.key a.domain.key intentDigest
    phase

def validateCallbackAccount (L : Ledger) (callback : AccountInfo) (expectedCallback : Pubkey) :
    Result Unit := do
  require (callback.key = expectedCallback) (.core .invalidCallbackAuthority)
  require (callback.isSigner = false ∧ callback.isWritable = false ∧
    (L callback.key).executable = false) (.core .invalidCallbackAuthority)

def validateReceiptBinding (receipt : Wire.Routed.EngineReceipt)
    (request : Wire.Routed.EngineRequest) (expectedPhase : UInt8) (expectedIntentDigest : Hash) :
    Result Unit := do
  require (receipt.phase = expectedPhase) (.core .engineReceiptPhaseMismatch)
  require (receipt.intentDigest = expectedIntentDigest) (.core .engineReceiptIntentMismatch)
  require (receipt.executionDigest = request.executionDigest)
    (.core .engineReceiptExecutionMismatch)

def validatePrimarySequence (phase : UInt8) (expected actual : UInt64) : Result Unit :=
  if phase = phasePrepare then
    require (actual = expected) (.core .prepareSequenceChanged)
  else do
    let next ← okOr (checkedAdd expected 1) (.core .arithmeticOverflow)
    require (actual = next) (.core .transitionSequenceMismatch)

def validateAmountOut (amountOut minimum accountedLiquidity : UInt64) : Result Unit := do
  require (0 < amountOut) (.core .zeroAmount)
  require (minimum ≤ amountOut) (.core .outputBelowUserMinimum)
  require (amountOut ≤ accountedLiquidity) (.core .insufficientAccountedLiquidity)

section

variable [Crypto]

def canonicalCallback (a : ExecuteCallbackAuthenticatedProbeV0) (intentDigest : Hash)
    (phase : UInt8) : Result CallbackPda := do
  let (key, bump) ← okOr (findProgramAddress (a.callbackSeeds intentDigest phase) ID) .panic
  return ⟨key, bump⟩

def loadExecute (L : Ledger) (a : ExecuteCallbackAuthenticatedProbeV0) : Result EnvelopeData := do
  let d ← loadEnvelope config L a.toEnvelope
  constrainEnvelope config L a.toEnvelope d none
  return d

def validateExecutionEnvelope (L : Ledger) (a : ExecuteCallbackAuthenticatedProbeV0)
    (d : EnvelopeData) : Result Unit := do
  bindEnvelope config L a.toEnvelope d
  require (a.market.isWritable = false ∧ a.mintA.isWritable = false ∧ a.mintB.isWritable = false ∧
    a.engineProgram.isWritable = false ∧ a.spendAuthority.isWritable = false ∧
    a.primaryCallback.isWritable = false ∧ a.commitCallback.isWritable = false ∧
    a.tokenProgram.isWritable = false) (.core .unexpectedWritablePrivilege)
  require (a.engineState.isWritable = true) (.core .unexpectedWritablePrivilege)
  require (a.market.isSigner = false ∧ a.domain.isSigner = false ∧ a.feeLedger.isSigner = false ∧
    a.mintA.isSigner = false ∧ a.mintB.isSigner = false ∧ a.userSourceA.isSigner = false ∧
    a.userDestinationB.isSigner = false ∧ a.vaultA.isSigner = false ∧ a.vaultB.isSigner = false ∧
    a.feeVault.isSigner = false ∧ a.engineProgram.isSigner = false ∧
    a.engineState.isSigner = false ∧ a.spendAuthority.isSigner = false ∧
    a.primaryCallback.isSigner = false ∧ a.commitCallback.isSigner = false ∧
    a.tokenProgram.isSigner = false) (.core .unexpectedSignerPrivilege)
  require ((L a.spendAuthority.key).executable = false) (.core .invalidSpendAuthority)
  require ((L a.primaryCallback.key).executable = false ∧
    (L a.commitCallback.key).executable = false) (.core .invalidCallbackAuthority)
  profileEnvelope a.toEnvelope d none

/-- The handler's first checks, up to the account profile. -/
def validateAccounts (env : Env config) (L : Ledger) (a : ExecuteCallbackAuthenticatedProbeV0)
    (d : EnvelopeData) (args : ExecuteCallbackAuthenticatedProbeV0Args) : Result UInt8 := do
  validateOpaquePayload args.opaquePayload
  let phase ← primaryPhase args.timingMode
  require (0 < args.amountIn) (.core .zeroAmount)
  require (env.slot ≤ args.expiresAtSlot) (.core .requestExpired)
  ensureDistinctRoles a.fixedEnvelopeKeys
  validateExecutionEnvelope L a d
  return phase

/-- The checks that authenticate the intent against the delegation the user left. -/
def authenticateIntent (L : Ledger) (a : ExecuteCallbackAuthenticatedProbeV0) (d : EnvelopeData)
    (args : ExecuteCallbackAuthenticatedProbeV0Args) (phase : UInt8) :
    Result AuthenticatedIntent := do
  let charge ← chargeInput args.amountIn d.market.feeBps args.maxProtocolFee args.maxTotalInputDebit
  require (charge.totalInputDebit ≤ d.userSourceA.amount) (.core .insufficientUserSourceBalance)
  require (args.minOutputCredit ≤ d.domain.accountedB) (.core .insufficientAccountedLiquidity)
  let opaqueDescriptors ← validateOpaqueCapabilities config
    (a.remainingAccounts.map (accountView L)) a.fixedEnvelopeKeys
  let authorizedCapabilityHash ← liftWire (.core .invalidWireEncoding)
    (Wire.Routed.computeCapabilityHash a.engineProgram.key
      (capabilityDescriptors L a.engineState opaqueDescriptors .authorized))
  require (authorizedCapabilityHash = args.expectedCapabilityHash)
    (.core .capabilityHashExpectationMismatch)
  let payloadHash ← liftWire (.core .invalidWireEncoding)
    (Wire.Routed.computePayloadHash args.opaquePayload)
  let intentDigest ← liftWire (.core .invalidWireEncoding) (Wire.Routed.computeIntentDigest
    (boundIntent a d args charge.protocolFee authorizedCapabilityHash payloadHash))
  let (spendAuthority, spendBump) ← canonicalSpendAuthority a.userSourceA.key intentDigest
  require (a.spendAuthority.key = spendAuthority) (.core .invalidSpendAuthority)
  validateDelegatedSpendSource d.userSourceA a.mintA.key spendAuthority charge.totalInputDebit
  let primaryCallback ← canonicalCallback a intentDigest phase
  let commitCallback ← canonicalCallback a intentDigest phaseCommit
  validateCallbackAccount L a.primaryCallback primaryCallback.key
  validateCallbackAccount L a.commitCallback commitCallback.key
  return {
    protocolFee := charge.protocolFee, totalInputDebit := charge.totalInputDebit, opaqueDescriptors,
    authorizedCapabilityHash, payloadHash, intentDigest, spendAuthority, spendBump,
    primaryCallback, commitCallback }

def buildEngineRequest (a : ExecuteCallbackAuthenticatedProbeV0) (d : EnvelopeData)
    (args : ExecuteCallbackAuthenticatedProbeV0Args) (protocolFee : UInt64) (intentDigest : Hash)
    (phase : UInt8) (phaseContextDigest : Hash) (preSequence : UInt64)
    (authorizedCapabilityHash phaseCapabilityHash : Hash) : Result Wire.Routed.EngineRequest := do
  let opaqueAccountCount ← opaqueCount a.remainingAccounts
  let binding ← liftWire (.core .invalidWireEncoding)
    (Wire.Routed.ExecutionBinding.new phase intentDigest phaseContextDigest a.market.key
      a.domain.key d.market.engineRevision args.amountIn protocolFee d.domain.accountedA
      d.domain.accountedB d.feeLedger.accountedFeeA preSequence authorizedCapabilityHash
      phaseCapabilityHash opaqueAccountCount args.opaquePayload)
  liftWire (.core .invalidWireEncoding) (Wire.Routed.EngineRequest.new binding)

def phaseMetas (a : ExecuteCallbackAuthenticatedProbeV0) (callback : AccountInfo)
    (phaseOpaqueDescriptors : List Wire.CapabilityDescriptor) (phase : UInt8) : List AccountMeta :=
  (if phase = phasePrepare then .newReadonly a.engineState.key false
    else .new a.engineState.key false) ::
  .newReadonly callback.key true :: phaseOpaqueDescriptors.map opaqueMeta

/-- The instruction of one engine phase and the infos it is sent with. -/
def phaseInstruction (L : Ledger) (a : ExecuteCallbackAuthenticatedProbeV0)
    (phaseOpaqueDescriptors : List Wire.CapabilityDescriptor) (request : Wire.Routed.EngineRequest)
    (callback : AccountInfo) : Result (Instruction × List AccountInfo) := do
  require (phaseOpaqueDescriptors.length = a.remainingAccounts.length) (.core .invalidWireEncoding)
  let data ← liftWire (.core .invalidWireEncoding) (Wire.Routed.encodeEngineInstruction request)
  let opaqueInfos ← phaseOpaqueDescriptors.mapM
    (normalizedInfo (a.remainingAccounts.map (accountView L)))
  return ({ programId := a.engineProgram.key
            accounts := phaseMetas a callback phaseOpaqueDescriptors request.binding.phase
            data },
    [a.engineState, callback] ++ opaqueInfos)

/-- One engine phase, signed for by its callback address. -/
def invokeEnginePhase (env : Env config) (a : ExecuteCallbackAuthenticatedProbeV0)
    (phaseOpaqueDescriptors : List Wire.CapabilityDescriptor) (request : Wire.Routed.EngineRequest)
    (callback : AccountInfo) (callbackBump : UInt8) : Handler Wire.Routed.EngineReceipt := do
  let w ← .get
  let (instruction, infos) ← .ofExcept
    (phaseInstruction w.ledger a phaseOpaqueDescriptors request callback)
  let callbackSigner ← .ofExcept (signerOfSeeds config
    (a.callbackSeeds request.binding.intentDigest request.binding.phase ++ [[callbackBump]]))
  (invokeSigned ID env.callee a.infos instruction infos [callbackSigner]).mapError .runtime
  let w ← .get
  .ofExcept do
    let data ← takeReceipt a.toEnvelope w.returnData
    liftWire (.core .invalidEngineReceipt) (Wire.Routed.decodeReceipt data)

/-- The accounted fields an accepted output leads to. -/
def acceptSettlement (d : EnvelopeData) (args : ExecuteCallbackAuthenticatedProbeV0Args)
    (i : AuthenticatedIntent) (amountOut : UInt64) : Result AcceptedSettlement := do
  let postAccountedA ← okOr (checkedAdd d.domain.accountedA args.amountIn) (.core .arithmeticOverflow)
  let postAccountedB ← okOr (checkedSub d.domain.accountedB amountOut) (.core .arithmeticOverflow)
  let postAccountedFeeA ← okOr (checkedAdd d.feeLedger.accountedFeeA i.protocolFee)
    (.core .arithmeticOverflow)
  return { protocolFee := i.protocolFee, totalInputDebit := i.totalInputDebit, amountOut,
           postAccountedA, postAccountedB, postAccountedFeeA }

def AcceptedSettlement.terms (s : AcceptedSettlement)
    (args : ExecuteCallbackAuthenticatedProbeV0Args) : SettleTerms :=
  ⟨args.amountIn, s.protocolFee, s.totalInputDebit, s.amountOut⟩

/-- The settlement, with the source debits signed for by the spend authority, which has to be
used up by them. -/
def settleAuthenticatedIntent (a : ExecuteCallbackAuthenticatedProbeV0) (d : EnvelopeData)
    (args : ExecuteCallbackAuthenticatedProbeV0Args) (i : AuthenticatedIntent)
    (settlement : AcceptedSettlement) : Handler EnvelopeData := do
  let spendSigner ← .ofExcept (signerOfSeeds config
    [spendAuthoritySeedV0, a.userSourceA.key.toList, i.intentDigest.toList, [i.spendBump]])
  let after ← settle config a.infos a.toEnvelope d a.spendAuthority.key [spendSigner]
    (settlement.terms args)
  .ofExcept (require (after.userSourceA.delegate = none ∧ after.userSourceA.delegatedAmount = 0)
    (.core .spendDelegateNotCleared))
  return after

def settlementBinding (after : EnvelopeData) (args : ExecuteCallbackAuthenticatedProbeV0Args)
    (settlement : AcceptedSettlement)
    (intentDigest primaryExecutionDigest primaryReceiptDigest : Hash) :
    Wire.Routed.SettlementBinding where
  intentDigest := intentDigest
  primaryExecutionDigest := primaryExecutionDigest
  primaryReceiptDigest := primaryReceiptDigest
  amountIn := args.amountIn
  amountOut := settlement.amountOut
  protocolFee := settlement.protocolFee
  totalInputDebit := settlement.totalInputDebit
  accountedInputBefore := after.domain.accountedA
  accountedOutputBefore := after.domain.accountedB
  accountedFeeBefore := after.feeLedger.accountedFeeA
  accountedInputAfter := settlement.postAccountedA
  accountedOutputAfter := settlement.postAccountedB
  accountedFeeAfter := settlement.postAccountedFeeA
  observedSourceAfter := after.userSourceA.amount
  observedDestinationAfter := after.userDestinationB.amount
  observedInputVaultAfter := after.vaultA.amount
  observedOutputVaultAfter := after.vaultB.amount
  observedFeeVaultAfter := after.feeVault.amount

/-- The request of a phase and its capability hash. -/
def phaseRequest (L : Ledger) (a : ExecuteCallbackAuthenticatedProbeV0) (d : EnvelopeData)
    (args : ExecuteCallbackAuthenticatedProbeV0Args) (i : AuthenticatedIntent) (phase : UInt8)
    (mode : CapabilityMode) (phaseContextDigest : Hash) (preSequence : UInt64) :
    Result (Hash × Wire.Routed.EngineRequest) := do
  let phaseCapabilityHash ← liftWire (.core .invalidWireEncoding)
    (Wire.Routed.computeCapabilityHash a.engineProgram.key
      (capabilityDescriptors L a.engineState i.opaqueDescriptors mode))
  if phase = phaseCommit then
    require (phaseCapabilityHash = i.authorizedCapabilityHash)
      (.core .capabilityHashExpectationMismatch)
  let request ← buildEngineRequest a d args i.protocolFee i.intentDigest phase phaseContextDigest
    preSequence i.authorizedCapabilityHash phaseCapabilityHash
  return (phaseCapabilityHash, request)

/-- The second engine call of the two-phase mode. -/
def commit (env : Env config) (a : ExecuteCallbackAuthenticatedProbeV0) (d : EnvelopeData)
    (args : ExecuteCallbackAuthenticatedProbeV0Args) (i : AuthenticatedIntent)
    (primaryReceipt : Wire.Routed.EngineReceipt) (settlementDigest : Hash) :
    Handler CommitOutcome := do
  let w ← .get
  let (phaseCapabilityHash, request) ← .ofExcept (phaseRequest w.ledger a d args i phaseCommit
    .authorized settlementDigest primaryReceipt.stateSequence)
  let receipt ← invokeEnginePhase env a
    ((capabilityDescriptors w.ledger a.engineState i.opaqueDescriptors .authorized).drop 1) request
    a.commitCallback i.commitCallback.bump
  .ofExcept (validateReceiptBinding receipt request phaseCommit i.intentDigest)
  .ofExcept (require (receipt.amountOut = primaryReceipt.amountOut) (.core .commitOutputMismatch))
  let expectedCommitSequence ← .ofExcept (okOr (checkedAdd primaryReceipt.stateSequence 1)
    (.core .arithmeticOverflow))
  .ofExcept (require (receipt.stateSequence = expectedCommitSequence)
    (.core .commitSequenceMismatch))
  let receiptDigest ← .ofExcept (liftWire (.core .invalidEngineReceipt)
    (Wire.Routed.computeReceiptDigest receipt))
  return { phaseCapabilityHash, executionDigest := request.executionDigest, receiptDigest,
           engineSequence := receipt.stateSequence }

/-- What the record of a single-phase execution says in place of a commit. -/
def noCommit : CommitOutcome := ⟨Bytes.zero 32, noCommitDigestV0, noCommitDigestV0, 0⟩

/-- The second engine call, where the timing mode asks for one. -/
def commitPhase (env : Env config) (a : ExecuteCallbackAuthenticatedProbeV0) (d : EnvelopeData)
    (args : ExecuteCallbackAuthenticatedProbeV0Args) (i : AuthenticatedIntent)
    (primaryReceipt : Wire.Routed.EngineReceipt) (settlementDigest : Hash) :
    Handler CommitOutcome :=
  if args.timingMode = timingPrepareCommit then
    commit env a d args i primaryReceipt settlementDigest
  else pure noCommit

/-- Everything that is checked before the engine is first called. -/
def prepareExecution (env : Env config) (L : Ledger) (a : ExecuteCallbackAuthenticatedProbeV0)
    (args : ExecuteCallbackAuthenticatedProbeV0Args) : Result PreparedExecution := do
  let d ← loadExecute L a
  let phase ← validateAccounts env L a d args
  let intent ← authenticateIntent L a d args phase
  let (primaryCapabilityHash, primaryRequest) ← phaseRequest L a d args intent phase
    (primaryMode phase) (Bytes.zero 32) args.expectedEngineSequence
  return { d, phase, intent, primaryCapabilityHash, primaryRequest }

/-- The checks on the receipt of the first engine call, and what it settles. -/
def acceptPrimary (args : ExecuteCallbackAuthenticatedProbeV0Args) (p : PreparedExecution)
    (receipt : Wire.Routed.EngineReceipt) : Result (Hash × AcceptedSettlement) := do
  validateReceiptBinding receipt p.primaryRequest p.phase p.intent.intentDigest
  validatePrimarySequence p.phase args.expectedEngineSequence receipt.stateSequence
  validateAmountOut receipt.amountOut args.minOutputCredit p.d.domain.accountedB
  let receiptDigest ← liftWire (.core .invalidEngineReceipt)
    (Wire.Routed.computeReceiptDigest receipt)
  let settlement ← acceptSettlement p.d args p.intent receipt.amountOut
  return (receiptDigest, settlement)

/-- The accounted fields stored and the event of an execution. -/
def recordExecution (a : ExecuteCallbackAuthenticatedProbeV0)
    (args : ExecuteCallbackAuthenticatedProbeV0Args) (p : PreparedExecution)
    (receipt : Wire.Routed.EngineReceipt) (receiptDigest : Hash) (settlement : AcceptedSettlement)
    (after : EnvelopeData) (settlementDigest : Hash) (outcome : CommitOutcome) : Handler Unit := do
  writeAccounted a.toEnvelope p.d settlement.postAccountedA settlement.postAccountedB
    settlement.postAccountedFeeA
  let opaqueAccountCount ← .ofExcept (okOr
    (if a.remainingAccounts.length < 2 ^ 8 then some (UInt8.ofNat a.remainingAccounts.length)
      else none) (.core .integerConversionFailed))
  emit (.callbackAuthenticatedProbeExecuted
    { market := a.market.key, domain := a.domain.key, engineProgram := a.engineProgram.key,
      engineState := a.engineState.key, userAuthority := after.userSourceA.owner,
      userInput := a.userSourceA.key, userOutput := a.userDestinationB.key,
      spendAuthority := a.spendAuthority.key, primaryCallback := a.primaryCallback.key,
      commitCallback := a.commitCallback.key, mintA := a.mintA.key, mintB := a.mintB.key,
      timingMode := args.timingMode, primaryPhase := p.phase,
      authorizationNonce := args.authorizationNonce, amountIn := args.amountIn,
      amountOut := settlement.amountOut, protocolFee := settlement.protocolFee,
      intentDigest := p.intent.intentDigest,
      authorizedCapabilityHash := p.intent.authorizedCapabilityHash,
      primaryPhaseCapabilityHash := p.primaryCapabilityHash,
      commitPhaseCapabilityHash := outcome.phaseCapabilityHash,
      payloadHash := p.intent.payloadHash,
      primaryExecutionDigest := p.primaryRequest.executionDigest,
      primaryReceiptDigest := receiptDigest, settlementDigest,
      commitExecutionDigest := outcome.executionDigest,
      commitReceiptDigest := outcome.receiptDigest,
      expectedEngineSequence := args.expectedEngineSequence,
      primaryEngineSequence := receipt.stateSequence,
      commitEngineSequence := outcome.engineSequence, opaqueAccountCount,
      postAccountedA := settlement.postAccountedA, postAccountedB := settlement.postAccountedB,
      postAccountedFeeA := settlement.postAccountedFeeA })

def handleExecuteCallbackAuthenticatedProbeV0 (env : Env config)
    (a : ExecuteCallbackAuthenticatedProbeV0) (args : ExecuteCallbackAuthenticatedProbeV0Args) :
    Handler Unit := do
  let w ← .get
  let p ← .ofExcept (prepareExecution env w.ledger a args)
  let receipt ← invokeEnginePhase env a ((capabilityDescriptors w.ledger a.engineState
    p.intent.opaqueDescriptors (primaryMode p.phase)).drop 1) p.primaryRequest a.primaryCallback
    p.intent.primaryCallback.bump
  let (receiptDigest, settlement) ← .ofExcept (acceptPrimary args p receipt)
  let after ← settleAuthenticatedIntent a p.d args p.intent settlement
  let settlementDigest ← .ofExcept (liftWire .panic (Wire.Routed.computeSettlementDigest
    (settlementBinding after args settlement p.intent.intentDigest p.primaryRequest.executionDigest
      receiptDigest)))
  let outcome ← commitPhase env a p.d args p.intent receipt settlementDigest
  recordExecution a args p receipt receiptDigest settlement after settlementDigest outcome

end

end ProgrammableSolana.Routed
