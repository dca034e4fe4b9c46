import ProgrammableSolana.Wire.Common

/-! The wire format of the routed Core: the intent a user authorises, the request of one engine
phase, the receipt for it, and what a settlement is summarised as. -/
namespace ProgrammableSolana.Wire.Routed

open ProgrammableSolana.Lib ProgrammableSolana.Solana

/-- `Bwhiw9S9ZdHkEhFF2Ps89HMxa5dHX1xSbdsGZ8W3qR2b`, where the Core is deployed. -/
def coreProgramId : Pubkey :=
  ⟨[162, 152, 71, 81, 131, 56, 179, 248, 149, 107, 199, 219, 231, 204, 241, 212, 117, 188, 24, 36,
    236, 187, 65, 176, 193, 24, 156, 193, 162, 245, 127, 60], rfl⟩

def timingSingle : UInt8 := 0

def timingPrepareCommit : UInt8 := 1

def phaseTransition : UInt8 := 0

def phasePrepare : UInt8 := 1

def phaseCommit : UInt8 := 2

def capabilityPrefixAccounts : ℕ := 1

def maxCapabilityDescriptors : ℕ := capabilityPrefixAccounts + maxOpaqueAccounts

def engineTransitionDiscriminator : Bytes 8 :=
  ⟨[0xfa, 0x8d, 0x5a, 0xf4, 0x72, 0x49, 0x21, 0x6a], rfl⟩

def enginePrepareDiscriminator : Bytes 8 :=
  ⟨[0x79, 0x9b, 0x9c, 0x5a, 0xa4, 0xfc, 0xdc, 0x6d], rfl⟩

def engineCommitDiscriminator : Bytes 8 :=
  ⟨[0xdf, 0x8c, 0x8e, 0xa5, 0xe5, 0xd0, 0x9c, 0x4a], rfl⟩

def receiptMagic : Bytes 8 := ⟨ascii "PMBRCB00", rfl⟩

def capabilityHashDomain : List UInt8 := ascii "programmable:routed-callback-auth:capability:v0"

def payloadHashDomain : List UInt8 := ascii "programmable:routed-callback-auth:payload:v0"

def intentHashDomain : List UInt8 := ascii "programmable:routed-callback-auth:intent:v0"

def executionHashDomain : List UInt8 := ascii "programmable:routed-callback-auth:execution:v0"

def receiptHashDomain : List UInt8 := ascii "programmable:routed-callback-auth:receipt:v0"

def settlementHashDomain : List UInt8 := ascii "programmable:routed-callback-auth:settlement:v0"

def intentBindingLen : ℕ := 2 + 15 * 32 + 8 * 8 + 3 * 32

def executionBindingLen : ℕ := 2 + 2 * 32 + 7 * 8 + 4 * 32 + 2 * 2 + maxOpaquePayloadLen

def engineRequestLen : ℕ := executionBindingLen + 32

def engineInstructionLen : ℕ := 8 + engineRequestLen

def engineReceiptLen : ℕ := 8 + 2 + 2 * 32 + 2 * 8

def settlementBindingLen : ℕ := 1 + 3 * 32 + 15 * 8

structure IntentBinding where
  timingMode : UInt8
  coreProgram : Pubkey
  market : Pubkey
  domain : Pubkey
  engineProgram : Pubkey
  engineState : Pubkey
  userAuthority : Pubkey
  userInput : Pubkey
  userOutput : Pubkey
  mintIn : Pubkey
  mintOut : Pubkey
  domainInputVault : Pubkey
  domainOutputVault : Pubkey
  protocolFeeVault : Pubkey
  feeLedger : Pubkey
  tokenProgram : Pubkey
  engineRevision : UInt64
  feePolicyRevision : UInt64
  amountIn : UInt64
  protocolFee : UInt64
  maxTotalInputDebit : UInt64
  minOutputCredit : UInt64
  maxProtocolFee : UInt64
  expiresAtSlot : UInt64
  authorizationNonce : Hash
  authorizedCapabilityHash : Hash
  payloadHash : Hash
  deriving DecidableEq

/-- `phaseContextDigest` is zero before COMMIT, where it is the settlement digest. -/
structure ExecutionBinding where
  phase : UInt8
  intentDigest : Hash
  phaseContextDigest : Hash
  market : Pubkey
  domain : Pubkey
  engineRevision : UInt64
  amountIn : UInt64
  protocolFee : UInt64
  accountedInputBefore : UInt64
  accountedOutputBefore : UInt64
  accountedFeeBefore : UInt64
  preSequence : UInt64
  authorizedCapabilityHash : Hash
  phaseCapabilityHash : Hash
  opaqueAccountCount : UInt16
  payloadLen : UInt16
  payload : Bytes maxOpaquePayloadLen
  deriving DecidableEq

structure EngineRequest where
  binding : ExecutionBinding
  executionDigest : Hash
  deriving DecidableEq

structure EngineReceipt where
  phase : UInt8
  intentDigest : Hash
  executionDigest : Hash
  amountOut : UInt64
  stateSequence : UInt64
  deriving DecidableEq

structure SettlementBinding where
  intentDigest : Hash
  primaryExecutionDigest : Hash
  primaryReceiptDigest : Hash
  amountIn : UInt64
  amountOut : UInt64
  protocolFee : UInt64
  totalInputDebit : UInt64
  accountedInputBefore : UInt64
  accountedOutputBefore : UInt64
  accountedFeeBefore : UInt64
  accountedInputAfter : UInt64
  accountedOutputAfter : UInt64
  accountedFeeAfter : UInt64
  observedSourceAfter : UInt64
  observedDestinationAfter : UInt64
  observedInputVaultAfter : UInt64
  observedOutputVaultAfter : UInt64
  observedFeeVaultAfter : UInt64
  deriving DecidableEq

def requireTimingMode (actual : UInt8) : Except CodecError Unit :=
  require (actual = timingSingle ∨ actual = timingPrepareCommit) (.unsupportedTimingMode actual)

def requirePhase (actual : UInt8) : Except CodecError Unit :=
  require (actual = phaseTransition ∨ actual = phasePrepare ∨ actual = phaseCommit)
    (.unsupportedPhase actual)

def validatePhaseForTiming (timingMode phase : UInt8) : Except CodecError Unit := do
  requireTimingMode timingMode
  requirePhase phase
  require ((timingMode = timingSingle ∧ phase = phaseTransition) ∨
    (timingMode = timingPrepareCommit ∧ (phase = phasePrepare ∨ phase = phaseCommit)))
    (.invalidPhaseForTiming timingMode phase)

def enginePhaseDiscriminator (phase : UInt8) : Except CodecError (Bytes 8) :=
  if phase = phaseTransition then .ok engineTransitionDiscriminator
  else if phase = phasePrepare then .ok enginePrepareDiscriminator
  else if phase = phaseCommit then .ok engineCommitDiscriminator
  else .error (.unsupportedPhase phase)

def validateExecutionBinding (b : ExecutionBinding) : Except CodecError Unit := do
  requirePhase b.phase
  require ((b.phaseContextDigest ≠ Bytes.zero 32) ↔ (b.phase = phaseCommit))
    (.invalidPhaseContext b.phase (b.phase = phaseCommit))
  validateOpaqueAccountCount b.opaqueAccountCount
  validatePayload b.payloadLen b.payload

/-- `ExecutionBinding::new`. -/
def ExecutionBinding.new (phase : UInt8) (intentDigest phaseContextDigest : Hash)
    (market domain : Pubkey) (engineRevision amountIn protocolFee accountedInputBefore
      accountedOutputBefore accountedFeeBefore preSequence : UInt64)
    (authorizedCapabilityHash phaseCapabilityHash : Hash) (opaqueAccountCount : UInt16)
    (payload : List UInt8) : WireResult ExecutionBinding := do
  (requirePhase phase).mapError .codec
  (validateOpaqueAccountCount opaqueAccountCount).mapError .codec
  let (payloadLen, payload) ← canonicalPayload payload
  let binding : ExecutionBinding :=
    { phase, intentDigest, phaseContextDigest, market, domain, engineRevision, amountIn, protocolFee,
      accountedInputBefore, accountedOutputBefore, accountedFeeBefore, preSequence,
      authorizedCapabilityHash, phaseCapabilityHash, opaqueAccountCount, payloadLen, payload }
  (validateExecutionBinding binding).mapError .codec
  return binding

section Encoding

def encodeIntentBinding (b : IntentBinding) : WireResult (List UInt8) := do
  (requireTimingMode b.timingMode).mapError .codec
  fill intentBindingLen (putAll [[probeWireVersion], [b.timingMode], b.coreProgram.toList,
    b.market.toList, b.domain.toList, b.engineProgram.toList, b.engineState.toList,
    b.userAuthority.toList, b.userInput.toList, b.userOutput.toList, b.mintIn.toList,
    b.mintOut.toList, b.domainInputVault.toList, b.domainOutputVault.toList,
    b.protocolFeeVault.toList, b.feeLedger.toList, b.tokenProgram.toList,
    (u64LeBytes b.engineRevision).toList, (u64LeBytes b.feePolicyRevision).toList,
    (u64LeBytes b.amountIn).toList, (u64LeBytes b.protocolFee).toList,
    (u64LeBytes b.maxTotalInputDebit).toList, (u64LeBytes b.minOutputCredit).toList,
    (u64LeBytes b.maxProtocolFee).toList, (u64LeBytes b.expiresAtSlot).toList,
    b.authorizationNonce.toList, b.authorizedCapabilityHash.toList, b.payloadHash.toList])

def readIntentBinding (data : List UInt8) : Reader CodecError IntentBinding := do
  check (requireVersion (← readU8 data))
  let timingMode ← readU8 data
  check (requireTimingMode timingMode)
  let coreProgram ← readArray data 32
  let market ← readArray data 32
  let domain ← readArray data 32
  let engineProgram ← readArray data 32
  let engineState ← readArray data 32
  let userAuthority ← readArray data 32
  let userInput ← readArray data 32
  let userOutput ← readArray data 32
  let mintIn ← readArray data 32
  let mintOut ← readArray data 32
  let domainInputVault ← readArray data 32
  let domainOutputVault ← readArray data 32
  let protocolFeeVault ← readArray data 32
  let feeLedger ← readArray data 32
  let tokenProgram ← readArray data 32
  let engineRevision ← readU64 data
  let feePolicyRevision ← readU64 data
  let amountIn ← readU64 data
  let protocolFee ← readU64 data
  let maxTotalInputDebit ← readU64 data
  let minOutputCredit ← readU64 data
  let maxProtocolFee ← readU64 data
  let expiresAtSlot ← readU64 data
  let authorizationNonce ← readArray data 32
  let authorizedCapabilityHash ← readArray data 32
  let payloadHash ← readArray data 32
  return { timingMode, coreProgram, market, domain, engineProgram, engineState, userAuthority,
           userInput, userOutput, mintIn, mintOut, domainInputVault, domainOutputVault,
           protocolFeeVault, feeLedger, tokenProgram, engineRevision, feePolicyRevision, amountIn,
           protocolFee, maxTotalInputDebit, minOutputCredit, maxProtocolFee, expiresAtSlot,
           authorizationNonce, authorizedCapabilityHash, payloadHash }

def decodeIntentBinding (data : List UInt8) : WireResult IntentBinding := do
  requireLength data intentBindingLen
  (readIntentBinding data).decode

def encodeExecutionBinding (b : ExecutionBinding) : WireResult (List UInt8) := do
  (validateExecutionBinding b).mapError .codec
  fill executionBindingLen (putAll [[probeWireVersion], [b.phase], b.intentDigest.toList,
    b.phaseContextDigest.toList, b.market.toList, b.domain.toList,
    (u64LeBytes b.engineRevision).toList, (u64LeBytes b.amountIn).toList,
    (u64LeBytes b.protocolFee).toList, (u64LeBytes b.accountedInputBefore).toList,
    (u64LeBytes b.accountedOutputBefore).toList, (u64LeBytes b.accountedFeeBefore).toList,
    (u64LeBytes b.preSequence).toList, b.authorizedCapabilityHash.toList,
    b.phaseCapabilityHash.toList, (u16LeBytes b.opaqueAccountCount).toList,
    (u16LeBytes b.payloadLen).toList, b.payload.toList])

def readExecutionBinding (data : List UInt8) : Reader CodecError ExecutionBinding := do
  check (requireVersion (← readU8 data))
  let phase ← readU8 data
  let intentDigest ← readArray data 32
  let phaseContextDigest ← readArray data 32
  let market ← readArray data 32
  let domain ← readArray data 32
  let engineRevision ← readU64 data
  let amountIn ← readU64 data
  let protocolFee ← readU64 data
  let accountedInputBefore ← readU64 data
  let accountedOutputBefore ← readU64 data
  let accountedFeeBefore ← readU64 data
  let preSequence ← readU64 data
  let authorizedCapabilityHash ← readArray data 32
  let phaseCapabilityHash ← readArray data 32
  let opaqueAccountCount ← readU16 data
  let payloadLen ← readU16 data
  let payload ← readArray data maxOpaquePayloadLen
  return { phase, intentDigest, phaseContextDigest, market, domain, engineRevision, amountIn,
           protocolFee, accountedInputBefore, accountedOutputBefore, accountedFeeBefore,
           preSequence, authorizedCapabilityHash, phaseCapabilityHash, opaqueAccountCount,
           payloadLen, payload }

def decodeExecutionBinding (data : List UInt8) : WireResult ExecutionBinding := do
  requireLength data executionBindingLen
  let binding ← (readExecutionBinding data).decode
  (validateExecutionBinding binding).mapError .codec
  return binding

def encodeReceipt (r : EngineReceipt) : WireResult (List UInt8) := do
  (requirePhase r.phase).mapError .codec
  fill engineReceiptLen (putAll [receiptMagic.toList, [probeWireVersion], [r.phase],
    r.intentDigest.toList, r.executionDigest.toList, (u64LeBytes r.amountOut).toList,
    (u64LeBytes r.stateSequence).toList])

def readReceipt (data : List UInt8) : Reader CodecError EngineReceipt := do
  check (require ((← readArray data 8) = receiptMagic) .invalidMagic)
  check (requireVersion (← readU8 data))
  let phase ← readU8 data
  check (requirePhase phase)
  let intentDigest ← readArray data 32
  let executionDigest ← readArray data 32
  let amountOut ← readU64 data
  let stateSequence ← readU64 data
  return { phase, intentDigest, executionDigest, amountOut, stateSequence }

def decodeReceipt (data : List UInt8) : WireResult EngineReceipt := do
  requireLength data engineReceiptLen
  (readReceipt data).decode

def encodeSettlementBinding (b : SettlementBinding) : WireResult (List UInt8) :=
  fill settlementBindingLen (putAll [[probeWireVersion], b.intentDigest.toList,
    b.primaryExecutionDigest.toList, b.primaryReceiptDigest.toList, (u64LeBytes b.amountIn).toList,
    (u64LeBytes b.amountOut).toList, (u64LeBytes b.protocolFee).toList,
    (u64LeBytes b.totalInputDebit).toList, (u64LeBytes b.accountedInputBefore).toList,
    (u64LeBytes b.accountedOutputBefore).toList, (u64LeBytes b.accountedFeeBefore).toList,
    (u64LeBytes b.accountedInputAfter).toList, (u64LeBytes b.accountedOutputAfter).toList,
    (u64LeBytes b.accountedFeeAfter).toList, (u64LeBytes b.observedSourceAfter).toList,
    (u64LeBytes b.observedDestinationAfter).toList, (u64LeBytes b.observedInputVaultAfter).toList,
    (u64LeBytes b.observedOutputVaultAfter).toList, (u64LeBytes b.observedFeeVaultAfter).toList])

def readSettlementBinding (data : List UInt8) : Reader CodecError SettlementBinding := do
  check (requireVersion (← readU8 data))
  let intentDigest ← readArray data 32
  let primaryExecutionDigest ← readArray data 32
  let primaryReceiptDigest ← readArray data 32
  let amountIn ← readU64 data
  let amountOut ← readU64 data
  let protocolFee ← readU64 data
  let totalInputDebit ← readU64 data
  let accountedInputBefore ← readU64 data
  let accountedOutputBefore ← readU64 data
  let accountedFeeBefore ← readU64 data
  let accountedInputAfter ← readU64 data
  let accountedOutputAfter ← readU64 data
  let accountedFeeAfter ← readU64 data
  let observedSourceAfter ← readU64 data
  let observedDestinationAfter ← readU64 data
  let observedInputVaultAfter ← readU64 data
  let observedOutputVaultAfter ← readU64 data
  let observedFeeVaultAfter ← readU64 data
  return { intentDigest, primaryExecutionDigest, primaryReceiptDigest, amountIn, amountOut,
           protocolFee, totalInputDebit, accountedInputBefore, accountedOutputBefore,
           accountedFeeBefore, accountedInputAfter, accountedOutputAfter, accountedFeeAfter,
           observedSourceAfter, observedDestinationAfter, observedInputVaultAfter,
           observedOutputVaultAfter, observedFeeVaultAfter }

def decodeSettlementBinding (data : List UInt8) : WireResult SettlementBinding := do
  requireLength data settlementBindingLen
  (readSettlementBinding data).decode

end Encoding

section Digests

variable [Crypto]

def computeCapabilityHash : Pubkey → List CapabilityDescriptor → WireResult Hash :=
  Wire.capabilityHash capabilityHashDomain maxCapabilityDescriptors

def computePayloadHash : List UInt8 → WireResult Hash := Wire.payloadHash payloadHashDomain

def computeIntentDigest (binding : IntentBinding) : WireResult Hash := do
  let encoded ← encodeIntentBinding binding
  return hashv [intentHashDomain, encoded]

def computeExecutionDigest (binding : ExecutionBinding) : WireResult Hash := do
  let encoded ← encodeExecutionBinding binding
  return hashv [executionHashDomain, encoded]

def computeReceiptDigest (receipt : EngineReceipt) : WireResult Hash := do
  let encoded ← encodeReceipt receipt
  return hashv [receiptHashDomain, encoded]

def computeSettlementDigest (binding : SettlementBinding) : WireResult Hash := do
  let encoded ← encodeSettlementBinding binding
  return hashv [settlementHashDomain, encoded]

/-- `EngineRequest::new`. -/
def EngineRequest.new (binding : ExecutionBinding) : WireResult EngineRequest := do
  let executionDigest ← computeExecutionDigest binding
  return { binding, executionDigest }

def validateEngineRequest (r : EngineRequest) : WireResult Unit := do
  let expected ← computeExecutionDigest r.binding
  require (r.executionDigest = expected) (.codec .executionDigestMismatch)

def encodeEngineRequest (r : EngineRequest) : WireResult (List UInt8) := do
  validateEngineRequest r
  let encodedBinding ← encodeExecutionBinding r.binding
  fill engineRequestLen (putAll [encodedBinding, r.executionDigest.toList])

def decodeEngineRequest (data : List UInt8) : WireResult EngineRequest := do
  requireLength data engineRequestLen
  let binding ← decodeExecutionBinding (data.take executionBindingLen)
  let executionDigest ← copyFromSlice 32 (data.drop executionBindingLen)
  let request : EngineRequest := { binding, executionDigest }
  validateEngineRequest request
  return request

def encodeEngineInstruction (r : EngineRequest) : WireResult (List UInt8) := do
  let encodedRequest ← encodeEngineRequest r
  let discriminator ← (enginePhaseDiscriminator r.binding.phase).mapError .codec
  fill engineInstructionLen (putAll [discriminator.toList, encodedRequest])

def decodeEngineInstruction (data : List UInt8) : WireResult EngineRequest := do
  requireLength data engineInstructionLen
  let request ← decodeEngineRequest (data.drop 8)
  let expected ← (enginePhaseDiscriminator request.binding.phase).mapError .codec
  require (data.take 8 = expected.toList) (.codec .invalidDiscriminator)
  return request

end Digests

end ProgrammableSolana.Wire.Routed
