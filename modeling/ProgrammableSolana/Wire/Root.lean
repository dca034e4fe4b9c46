import ProgrammableSolana.Wire.Common

/-! The wire format between the authority-kernel Core and its engine. -/
namespace ProgrammableSolana.Wire.Root

open ProgrammableSolana.Lib ProgrammableSolana.Solana

def receiptMagic : Bytes 8 := ⟨ascii "PMBRCP00", rfl⟩

def planDomain : List UInt8 := ascii "programmable:engine-probe:plan:v0"

def planBindingLen : ℕ := 1 + 15 * 32 + 12 * 8

def engineRequestLen : ℕ := 1 + 3 * 32 + 7 * 8

def evaluateInstructionLen : ℕ := 8 + engineRequestLen

def engineReceiptLen : ℕ := 8 + 1 + 32 + 8

structure PlanBinding where
  coreProgram : Pubkey
  market : Pubkey
  domain : Pubkey
  engineProgram : Pubkey
  engineState : Pubkey
  userAuthority : Pubkey
  userInput : Pubkey
  userOutput : Pubkey
  mintIn : Pubkey
  mintOut : Pubkey
  domainInputVault : Pubkey
  domainOutputVault : Pubkey
  protocolFeeVault : Pubkey
  feeLedger : Pubkey
  tokenProgram : Pubkey
  engineRevision : UInt64
  feePolicyRevision : UInt64
  amountIn : UInt64
  amountOut : UInt64
  protocolFee : UInt64
  maxTotalInputDebit : UInt64
  minOutputCredit : UInt64
  maxProtocolFee : UInt64
  accountedInputBefore : UInt64
  accountedOutputBefore : UInt64
  accountedFeeBefore : UInt64
  expiresAtSlot : UInt64
  deriving DecidableEq

structure EngineRequest where
  planHash : Hash
  market : Pubkey
  domain : Pubkey
  engineRevision : UInt64
  amountIn : UInt64
  amountOut : UInt64
  protocolFee : UInt64
  accountedInputBefore : UInt64
  accountedOutputBefore : UInt64
  accountedFeeBefore : UInt64
  deriving DecidableEq

structure EngineReceipt where
  planHash : Hash
  stateSequence : UInt64
  deriving DecidableEq

def encodePlanBinding (b : PlanBinding) : WireResult (List UInt8) :=
  fill planBindingLen (putAll [[probeWireVersion], b.coreProgram.toList, b.market.toList,
    b.domain.toList, b.engineProgram.toList, b.engineState.toList, b.userAuthority.toList,
    b.userInput.toList, b.userOutput.toList, b.mintIn.toList, b.mintOut.toList,
    b.domainInputVault.toList, b.domainOutputVault.toList, b.protocolFeeVault.toList,
    b.feeLedger.toList, b.tokenProgram.toList, (u64LeBytes b.engineRevision).toList,
    (u64LeBytes b.feePolicyRevision).toList, (u64LeBytes b.amountIn).toList,
    (u64LeBytes b.amountOut).toList, (u64LeBytes b.protocolFee).toList,
    (u64LeBytes b.maxTotalInputDebit).toList, (u64LeBytes b.minOutputCredit).toList,
    (u64LeBytes b.maxProtocolFee).toList, (u64LeBytes b.accountedInputBefore).toList,
    (u64LeBytes b.accountedOutputBefore).toList, (u64LeBytes b.accountedFeeBefore).toList,
    (u64LeBytes b.expiresAtSlot).toList])

def computePlanHash [Crypto] (binding : PlanBinding) : WireResult Hash := do
  let encoded ← encodePlanBinding binding
  return hashv [planDomain, encoded]

def encodeRequest (r : EngineRequest) : WireResult (List UInt8) :=
  fill engineRequestLen (putAll [[probeWireVersion], r.planHash.toList, r.market.toList,
    r.domain.toList, (u64LeBytes r.engineRevision).toList, (u64LeBytes r.amountIn).toList,
    (u64LeBytes r.amountOut).toList, (u64LeBytes r.protocolFee).toList,
    (u64LeBytes r.accountedInputBefore).toList, (u64LeBytes r.accountedOutputBefore).toList,
    (u64LeBytes r.accountedFeeBefore).toList])

def readRequest (data : List UInt8) : Reader CodecError EngineRequest := do
  check (requireVersion (← readU8 data))
  let planHash ← readArray data 32
  let market ← readArray data 32
  let domain ← readArray data 32
  let engineRevision ← readU64 data
  let amountIn ← readU64 data
  let amountOut ← readU64 data
  let protocolFee ← readU64 data
  let accountedInputBefore ← readU64 data
  let accountedOutputBefore ← readU64 data
  let accountedFeeBefore ← readU64 data
  return { planHash, market, domain, engineRevision, amountIn, amountOut, protocolFee,
           accountedInputBefore, accountedOutputBefore, accountedFeeBefore }

def decodeRequest (data : List UInt8) : WireResult EngineRequest := do
  requireLength data engineRequestLen
  (readRequest data).decode

def encodeEvaluateInstruction (request : EngineRequest) : WireResult (List UInt8) := do
  let encoded ← encodeRequest request
  fill evaluateInstructionLen (putAll [evaluateDiscriminator.toList, encoded])

def decodeEvaluateInstruction (data : List UInt8) : WireResult EngineRequest := do
  requireLength data evaluateInstructionLen
  require (data.take 8 = evaluateDiscriminator.toList) (.codec .invalidDiscriminator)
  decodeRequest (data.drop 8)

def encodeReceipt (receipt : EngineReceipt) : WireResult (List UInt8) :=
  fill engineReceiptLen (putAll [receiptMagic.toList, [probeWireVersion], receipt.planHash.toList,
    (u64LeBytes receipt.stateSequence).toList])

def readReceipt (data : List UInt8) : Reader CodecError EngineReceipt := do
  check (require ((← readArray data 8) = receiptMagic) .invalidMagic)
  check (requireVersion (← readU8 data))
  let planHash ← readArray data 32
  let stateSequence ← readU64 data
  return { planHash, stateSequence }

def decodeReceipt (data : List UInt8) : WireResult EngineReceipt := do
  requireLength data engineReceiptLen
  (readReceipt data).decode

def receiptCodec : Codec CodecError EngineReceipt :=
  ((magicCodec receiptMagic).pair <| versionCodec.pair <| (Codec.bytes 32).pair Codec.u64).map
    (fun (_, _, planHash, stateSequence) => { planHash, stateSequence })
    (fun r => ((), (), r.planHash, r.stateSequence)) (fun _ => rfl) (fun _ => rfl)

theorem readReceipt_eq (data : List UInt8) : readReceipt data = receiptCodec.read data := by
  simp only [readReceipt, receiptCodec, Codec.map, Codec.pair, Codec.literal, Codec.bytes, Codec.u64,
    Codec.u8, magicCodec, versionCodec, bind_assoc, pure_bind, readU64]

theorem encodeReceipt_eq (r : EngineReceipt) : encodeReceipt r = .ok (receiptCodec.enc r) := by
  rw [encodeReceipt, fill_putAll (by simp [engineReceiptLen])]
  rfl

/-- The receipt codec is exact: the accepted strings are the encodings. -/
theorem decodeReceipt_ok_iff {data : List UInt8} {r : EngineReceipt} :
    decodeReceipt data = .ok r ↔ encodeReceipt r = .ok data := by
  have hvalid : receiptCodec.Valid r := ⟨trivial, trivial, trivial, trivial⟩
  rw [decodeReceipt, readReceipt_eq, requireLength,
    receiptCodec.require_decode_eq_ok_iff (n := engineReceiptLen) rfl, encodeReceipt_eq, Except.ok.injEq, eq_comm]
  simp [hvalid]

end ProgrammableSolana.Wire.Root
