import ProgrammableSolana.Wire.Common

/-! The wire format between the generated-settlement Core and its engine. -/
namespace ProgrammableSolana.Wire.Generated

open ProgrammableSolana.Lib ProgrammableSolana.Solana

/-- `EJKx7XFp6CZQuAHD6AC14g7nUKeczJMr2TX9XRUEjs36`, where the Core is deployed. -/
def coreProgramId : Pubkey :=
  ⟨[197, 152, 59, 26, 121, 146, 32, 124, 111, 19, 247, 10, 199, 111, 58, 45, 39, 11, 136, 104, 93,
    1, 237, 152, 96, 29, 28, 157, 218, 44, 18, 193], rfl⟩

def capabilityPrefixAccounts : ℕ := 2

def maxCapabilityDescriptors : ℕ := capabilityPrefixAccounts + maxOpaqueAccounts

def receiptMagic : Bytes 8 := ⟨ascii "PMBGSR00", rfl⟩

def capabilityHashDomain : List UInt8 := ascii "programmable:generated-settlement:capability:v0"

def payloadHashDomain : List UInt8 := ascii "programmable:generated-settlement:payload:v0"

def requestHashDomain : List UInt8 := ascii "programmable:generated-settlement:request:v0"

def requestBindingLen : ℕ := 1 + 15 * 32 + 11 * 8 + 2 * 32

def engineRequestLen : ℕ := 1 + 32 + 2 * 32 + 4 * 8 + 2 + 32 + 2 + maxOpaquePayloadLen

def evaluateInstructionLen : ℕ := 8 + engineRequestLen

def engineReceiptLen : ℕ := 8 + 1 + 32 + 2 * 8

structure RequestBinding where
  coreProgram : Pubkey
  market : Pubkey
  domain : Pubkey
  engineProgram : Pubkey
  engineState : Pubkey
  userAuthority : Pubkey
  userInput : Pubkey
  userOutput : Pubkey
  mintIn : Pubkey
  mintOut : Pubkey
  domainInputVault : Pubkey
  domainOutputVault : Pubkey
  protocolFeeVault : Pubkey
  feeLedger : Pubkey
  tokenProgram : Pubkey
  engineRevision : UInt64
  feePolicyRevision : UInt64
  amountIn : UInt64
  protocolFee : UInt64
  maxTotalInputDebit : UInt64
  minOutputCredit : UInt64
  maxProtocolFee : UInt64
  accountedInputBefore : UInt64
  accountedOutputBefore : UInt64
  accountedFeeBefore : UInt64
  expiresAtSlot : UInt64
  capabilityHash : Hash
  payloadHash : Hash
  deriving DecidableEq

structure EngineRequest where
  requestHash : Hash
  market : Pubkey
  domain : Pubkey
  engineRevision : UInt64
  amountIn : UInt64
  accountedInputBefore : UInt64
  accountedOutputBefore : UInt64
  opaqueAccountCount : UInt16
  capabilityHash : Hash
  payloadLen : UInt16
  payload : Bytes maxOpaquePayloadLen
  deriving DecidableEq

structure EngineReceipt where
  requestHash : Hash
  amountOut : UInt64
  stateSequence : UInt64
  deriving DecidableEq

def validateEngineRequest (r : EngineRequest) : Except CodecError Unit := do
  validateOpaqueAccountCount r.opaqueAccountCount
  validatePayload r.payloadLen r.payload

/-- `EngineRequest::new`. -/
def EngineRequest.new (requestHash : Hash) (market domain : Pubkey)
    (engineRevision amountIn accountedInputBefore accountedOutputBefore : UInt64)
    (opaqueAccountCount : UInt16) (capabilityHash : Hash) (payload : List UInt8) :
    WireResult EngineRequest := do
  (validateOpaqueAccountCount opaqueAccountCount).mapError .codec
  let (payloadLen, payload) ← canonicalPayload payload
  return { requestHash, market, domain, engineRevision, amountIn, accountedInputBefore,
           accountedOutputBefore, opaqueAccountCount, capabilityHash, payloadLen, payload }

/-- `EngineRequest::payload_bytes`. -/
def EngineRequest.payloadBytes (r : EngineRequest) : Except CodecError (List UInt8) := do
  validateEngineRequest r
  return r.payload.toList.take r.payloadLen.toNat

def computeCapabilityHash [Crypto] : Pubkey → List CapabilityDescriptor → WireResult Hash :=
  Wire.capabilityHash capabilityHashDomain maxCapabilityDescriptors

def computePayloadHash [Crypto] : List UInt8 → WireResult Hash := Wire.payloadHash payloadHashDomain

def encodeRequestBinding (b : RequestBinding) : WireResult (List UInt8) :=
  fill requestBindingLen (putAll [[probeWireVersion], b.coreProgram.toList, b.market.toList,
    b.domain.toList, b.engineProgram.toList, b.engineState.toList, b.userAuthority.toList,
    b.userInput.toList, b.userOutput.toList, b.mintIn.toList, b.mintOut.toList,
    b.domainInputVault.toList, b.domainOutputVault.toList, b.protocolFeeVault.toList,
    b.feeLedger.toList, b.tokenProgram.toList, (u64LeBytes b.engineRevision).toList,
    (u64LeBytes b.feePolicyRevision).toList, (u64LeBytes b.amountIn).toList,
    (u64LeBytes b.protocolFee).toList, (u64LeBytes b.maxTotalInputDebit).toList,
    (u64LeBytes b.minOutputCredit).toList, (u64LeBytes b.maxProtocolFee).toList,
    (u64LeBytes b.accountedInputBefore).toList, (u64LeBytes b.accountedOutputBefore).toList,
    (u64LeBytes b.accountedFeeBefore).toList, (u64LeBytes b.expiresAtSlot).toList,
    b.capabilityHash.toList, b.payloadHash.toList])

def readRequestBinding (data : List UInt8) : Reader CodecError RequestBinding := do
  check (requireVersion (← readU8 data))
  let coreProgram ← readArray data 32
  let market ← readArray data 32
  let domain ← readArray data 32
  let engineProgram ← readArray data 32
  let engineState ← readArray data 32
  let userAuthority ← readArray data 32
  let userInput ← readArray data 32
  let userOutput ← readArray data 32
  let mintIn ← readArray data 32
  let mintOut ← readArray data 32
  let domainInputVault ← readArray data 32
  let domainOutputVault ← readArray data 32
  let protocolFeeVault ← readArray data 32
  let feeLedger ← readArray data 32
  let tokenProgram ← readArray data 32
  let engineRevision ← readU64 data
  let feePolicyRevision ← readU64 data
  let amountIn ← readU64 data
  let protocolFee ← readU64 data
  let maxTotalInputDebit ← readU64 data
  let minOutputCredit ← readU64 data
  let maxProtocolFee ← readU64 data
  let accountedInputBefore ← readU64 data
  let accountedOutputBefore ← readU64 data
  let accountedFeeBefore ← readU64 data
  let expiresAtSlot ← readU64 data
  let capabilityHash ← readArray data 32
  let payloadHash ← readArray data 32
  return { coreProgram, market, domain, engineProgram, engineState, userAuthority, userInput,
           userOutput, mintIn, mintOut, domainInputVault, domainOutputVault, protocolFeeVault,
           feeLedger, tokenProgram, engineRevision, feePolicyRevision, amountIn, protocolFee,
           maxTotalInputDebit, minOutputCredit, maxProtocolFee, accountedInputBefore,
           accountedOutputBefore, accountedFeeBefore, expiresAtSlot, capabilityHash, payloadHash }

def decodeRequestBinding (data : List UInt8) : WireResult RequestBinding := do
  requireLength data requestBindingLen
  (readRequestBinding data).decode

def computeRequestHash [Crypto] (binding : RequestBinding) : WireResult Hash := do
  let encoded ← encodeRequestBinding binding
  return hashv [requestHashDomain, encoded]

def encodeRequest (r : EngineRequest) : WireResult (List UInt8) := do
  (validateEngineRequest r).mapError .codec
  fill engineRequestLen (putAll [[probeWireVersion], r.requestHash.toList, r.market.toList,
    r.domain.toList, (u64LeBytes r.engineRevision).toList, (u64LeBytes r.amountIn).toList,
    (u64LeBytes r.accountedInputBefore).toList, (u64LeBytes r.accountedOutputBefore).toList,
    (u16LeBytes r.opaqueAccountCount).toList, r.capabilityHash.toList,
    (u16LeBytes r.payloadLen).toList, r.payload.toList])

def readRequest (data : List UInt8) : Reader CodecError EngineRequest := do
  check (requireVersion (← readU8 data))
  let requestHash ← readArray data 32
  let market ← readArray data 32
  let domain ← readArray data 32
  let engineRevision ← readU64 data
  let amountIn ← readU64 data
  let accountedInputBefore ← readU64 data
  let accountedOutputBefore ← readU64 data
  let opaqueAccountCount ← readU16 data
  let capabilityHash ← readArray data 32
  let payloadLen ← readU16 data
  let payload ← readArray data maxOpaquePayloadLen
  return { requestHash, market, domain, engineRevision, amountIn, accountedInputBefore,
           accountedOutputBefore, opaqueAccountCount, capabilityHash, payloadLen, payload }

def decodeRequest (data : List UInt8) : WireResult EngineRequest := do
  requireLength data engineRequestLen
  let request ← (readRequest data).decode
  (validateEngineRequest request).mapError .codec
  return request

def encodeEvaluateInstruction (request : EngineRequest) : WireResult (List UInt8) := do
  let encoded ← encodeRequest request
  fill evaluateInstructionLen (putAll [evaluateDiscriminator.toList, encoded])

def decodeEvaluateInstruction (data : List UInt8) : WireResult EngineRequest := do
  requireLength data evaluateInstructionLen
  require (data.take 8 = evaluateDiscriminator.toList) (.codec .invalidDiscriminator)
  decodeRequest (data.drop 8)

def encodeReceipt (receipt : EngineReceipt) : WireResult (List UInt8) :=
  fill engineReceiptLen (putAll [receiptMagic.toList, [probeWireVersion],
    receipt.requestHash.toList, (u64LeBytes receipt.amountOut).toList,
    (u64LeBytes receipt.stateSequence).toList])

def readReceipt (data : List UInt8) : Reader CodecError EngineReceipt := do
  check (require ((← readArray data 8) = receiptMagic) .invalidMagic)
  check (requireVersion (← readU8 data))
  let requestHash ← readArray data 32
  let amountOut ← readU64 data
  let stateSequence ← readU64 data
  return { requestHash, amountOut, stateSequence }

def decodeReceipt (data : List UInt8) : WireResult EngineReceipt := do
  requireLength data engineReceiptLen
  (readReceipt data).decode

def receiptCodec : Codec CodecError EngineReceipt :=
  ((magicCodec receiptMagic).pair <| versionCodec.pair <| (Codec.bytes 32).pair <|
    Codec.u64.pair Codec.u64).map
    (fun (_, _, requestHash, amountOut, stateSequence) => { requestHash, amountOut, stateSequence })
    (fun r => ((), (), r.requestHash, r.amountOut, r.stateSequence)) (fun _ => rfl) (fun _ => rfl)

theorem readReceipt_eq (data : List UInt8) : readReceipt data = receiptCodec.read data := by
  simp only [readReceipt, receiptCodec, Codec.map, Codec.pair, Codec.literal, Codec.bytes, Codec.u64,
    Codec.u8, magicCodec, versionCodec, bind_assoc, pure_bind, readU64]

theorem encodeReceipt_eq (r : EngineReceipt) : encodeReceipt r = .ok (receiptCodec.enc r) := by
  rw [encodeReceipt, fill_putAll (by simp [engineReceiptLen])]
  rfl

/-- The receipt codec is exact: the accepted strings are the encodings. -/
theorem decodeReceipt_ok_iff {data : List UInt8} {r : EngineReceipt} :
    decodeReceipt data = .ok r ↔ encodeReceipt r = .ok data := by
  have hvalid : receiptCodec.Valid r := ⟨trivial, trivial, trivial, trivial, trivial⟩
  rw [decodeReceipt, readReceipt_eq, requireLength,
    receiptCodec.require_decode_eq_ok_iff (n := engineReceiptLen) rfl, encodeReceipt_eq,
    Except.ok.injEq, eq_comm]
  simp [hvalid]

theorem decodeReceipt_ne_outOfBounds {data : List UInt8} :
    decodeReceipt data ≠ .error .outOfBounds := by
  rw [decodeReceipt, readReceipt_eq, requireLength]
  exact receiptCodec.require_decode_ne_outOfBounds rfl

end ProgrammableSolana.Wire.Generated
