import ProgrammableSolana.Engines.Quote
import ProgrammableSolana.Solana.Programs
import ProgrammableSolana.Wire.GeneratedCodec

/-! The reference engine of the generated-settlement Core: its state account, its evaluation, which
looks at the call stack instead of a signature, and the receipt each of its modes answers with. -/
namespace ProgrammableSolana.Engines.GeneratedPlan

open ProgrammableSolana.Lib ProgrammableSolana.Solana ProgrammableSolana.Engines
open ProgrammableSolana.Wire (CapabilityDescriptor maxOpaqueAccounts maxOpaquePayloadLen)
open ProgrammableSolana.Wire.Generated (EngineRequest EngineReceipt)

/-- `EAX2oQEejkYYTxaVCbQ3pfy9bySj3WMwtV36gvf77Mj1`. -/
def ID : Pubkey :=
  ⟨[195, 152, 29, 15, 222, 175, 137, 104, 15, 247, 198, 28, 213, 61, 184, 176, 203, 38, 87, 69, 7,
    235, 31, 75, 28, 238, 92, 74, 177, 21, 247, 36], rfl⟩

def disposableCoreProgramId : Pubkey := Wire.Generated.coreProgramId

/-- `EsZGEzu3NgpwumgwdsjxW3c6xB9wR6gy3qj9Y86nZ7Uv`. -/
def disposableHelperProgramId : Pubkey :=
  ⟨[206, 27, 115, 60, 97, 169, 26, 236, 87, 82, 224, 217, 250, 4, 14, 16, 128, 57, 63, 156, 228, 193,
    39, 158, 36, 39, 205, 201, 157, 247, 255, 91], rfl⟩

def coreExecuteEngineGeneratedProbeDiscriminator : List UInt8 :=
  [0x5f, 0xaa, 0xd9, 0x7c, 0x75, 0x15, 0xb2, 0xae]

def capabilityAuthoritySeed : List UInt8 := ascii "capability-authority-v0"

def maxOpaqueCapabilities : ℕ := maxOpaqueAccounts

def modeAccept : UInt8 := 0

def modeMissingReceipt : UInt8 := 1

def modeWrongRequestHash : UInt8 := 2

def modeMalformedReceipt : UInt8 := 3

def modeZeroOutput : UInt8 := 4

def modeOversizedOutput : UInt8 := 5

def modeHostileReadonlyEscalation : UInt8 := 6

def modeWrongReceiptMagic : UInt8 := 7

def modeWrongReceiptVersion : UInt8 := 8

def modeTrailingReceiptByte : UInt8 := 9

structure EngineState where
  authority : Pubkey
  market : Pubkey
  revision : UInt64
  lpFeeBps : UInt16
  sequence : UInt64
  lastRequestHash : Hash
  lastAmountOut : UInt64
  capabilityAuthorityBump : UInt8
  mode : UInt8
  deriving DecidableEq

def engineStateLen : ℕ := 8 + (32 + 32 + 8 + 2 + 8 + 32 + 8 + 1 + 1)

/-- The first bytes of `sha256("account:CapabilityAuthorityMarker")`. -/
def markerDiscriminator : Bytes 8 := ⟨[231, 129, 174, 211, 81, 105, 247, 90], rfl⟩

/-- `try_serialize`. -/
def EngineState.trySerialize (s : EngineState) : List UInt8 :=
  [engineStateDiscriminator.toList, s.authority.toList, s.market.toList,
    (u64LeBytes s.revision).toList, (u16LeBytes s.lpFeeBps).toList, (u64LeBytes s.sequence).toList,
    s.lastRequestHash.toList, (u64LeBytes s.lastAmountOut).toList, [s.capabilityAuthorityBump],
    [s.mode]].flatten

/-- `try_deserialize`. -/
def readEngineState (data : List UInt8) : Reader EngineError EngineState := do
  check (require ((← readArray data 8) = engineStateDiscriminator) .invalidEngineState)
  let authority ← readArray data 32
  let market ← readArray data 32
  let revision ← readU64 data
  let lpFeeBps ← readU16 data
  let sequence ← readU64 data
  let lastRequestHash ← readArray data 32
  let lastAmountOut ← readU64 data
  let capabilityAuthorityBump ← readU8 data
  let mode ← readU8 data
  return { authority, market, revision, lpFeeBps, sequence, lastRequestHash, lastAmountOut,
           capabilityAuthorityBump, mode }

/-- What introspection shows of the transaction: the depth of the engine's own frame and the
top-level instruction it runs under. -/
structure Introspection where
  stackHeight : ℕ
  programId : Pubkey
  data : List UInt8

def transactionLevelStackHeight : ℕ := 1

/-- The accounts of an evaluation. -/
structure Evaluate where
  engineState : AccountInfo
  instructionsSysvar : AccountInfo

/-- What an evaluation comes to: the nested call where there is one, the state it stores and the
return data it sets, where it sets any. -/
structure Evaluation where
  helper : Option Instruction
  stored : Pubkey × EngineState
  returned : Option (List UInt8)

/-- `require_direct_core_cpi`. -/
def requireDirectCoreCpi (top : Introspection) : EngineResult Unit := do
  require (top.stackHeight = transactionLevelStackHeight + 1) .invalidInvocationDepth
  require (top.programId = disposableCoreProgramId) .invalidCoreCaller
  require (coreExecuteEngineGeneratedProbeDiscriminator <+: top.data) .invalidCoreInstruction

/-- This engine's copy of `quote_exact_in`. -/
def quoteExactIn (reserveIn reserveOut grossInput : UInt64) (lpFeeBps : UInt16) :
    EngineResult CpmmQuote :=
  Engines.quoteExactIn reserveIn reserveOut grossInput lpFeeBps

/-- `quote_exact_in` under a mode. -/
def modeAmountOut (mode : UInt8) (quoted : UInt64) : UInt64 :=
  if mode = modeZeroOutput then 0
  else if mode = modeOversizedOutput then UInt64.ofNat (2 ^ 64 - 1)
  else quoted

/-- The return data a mode sets for a receipt. -/
def emitReceipt (mode : UInt8) (receipt : EngineReceipt) : EngineResult (Option (List UInt8)) := do
  let encoded ← (Wire.Generated.encodeReceipt receipt).mapError fun _ => .invalidReceiptEncoding
  if mode = modeAccept ∨ mode = modeZeroOutput ∨ mode = modeOversizedOutput then
    return some encoded
  else if mode = modeMissingReceipt then
    return none
  else if mode = modeWrongRequestHash then
    return some (encoded.modify 9 (· ^^^ 1))
  else if mode = modeMalformedReceipt then
    return some encoded.dropLast
  else if mode = modeWrongReceiptMagic then
    return some (encoded.modify 0 (· ^^^ 1))
  else if mode = modeWrongReceiptVersion then
    return some (encoded.modify 8 (· ^^^ 1))
  else if mode = modeTrailingReceiptByte then
    return some (encoded ++ [0])
  else .error .invalidMode

/-- The state after an evaluation. -/
def advance (state : EngineState) (request : EngineRequest) (amountOut : UInt64) :
    EngineResult EngineState := do
  let sequence ← okOr (checkedAdd state.sequence 1) .sequenceOverflow
  return { state with
    sequence, lastRequestHash := request.requestHash, lastAmountOut := amountOut }

section

variable {σ : Type} (L : Ledger σ)

def loadEngineState (key : Pubkey) : EngineResult EngineState := do
  require ((L key).owner = ID) .invalidEngineState
  match (L key).data with
  | .raw data => do
    require (data.length = engineStateLen) .invalidEngineState
    (readEngineState data).decode.mapError fun _ => .invalidEngineState
  | _ => .error .invalidEngineState

def capabilityDescriptor (account : AccountInfo) : CapabilityDescriptor where
  key := account.key
  owner := (L account.key).owner
  isWritable := account.isWritable
  isSigner := account.isSigner
  isExecutable := (L account.key).executable

/-- The engine state a capability marker belongs to. -/
def loadMarker (key : Pubkey) : EngineResult Pubkey :=
  match (L key).data with
  | .raw data => do
    require (markerDiscriminator.toList <+: data) .invalidCapabilityAuthority
    match copyFromSlice 32 ((data.drop 8).take 32) with
    | .ok engineState => .ok engineState
    | .error (_ : Fault EngineError) => .error .invalidCapabilityAuthority
  | _ => .error .invalidCapabilityAuthority

variable [Crypto]

/-- `maybe_invoke_helper`, up to the call itself. -/
def helperInstruction (payload : List UInt8) (opaqueAccounts : List AccountInfo)
    (engineState : Pubkey) (capabilityAuthorityBump : UInt8) : EngineResult (Option Instruction) :=
  if payload.head? ≠ some helperPayloadTag then .ok none
  else
    match opaqueAccounts with
    | helperProgram :: helperState :: capabilityAuthority :: _ => do
      require (opaqueAccounts.length ≤ maxOpaqueCapabilities) .invalidHelperCapabilityClosure
      require ((L helperProgram.key).executable = true ∧ helperProgram.isWritable = false ∧
        helperProgram.isSigner = false) .invalidHelperProgram
      require (helperProgram.key = disposableHelperProgramId) .invalidHelperProgram
      require (helperState.isWritable = true ∧ helperState.isSigner = false ∧
        (L helperState.key).executable = false) .invalidHelperState
      require ((L helperState.key).owner = helperProgram.key) .invalidHelperState
      require (capabilityAuthority.isWritable = false ∧ capabilityAuthority.isSigner = false ∧
        (L capabilityAuthority.key).executable = false) .invalidCapabilityAuthority
      require ((L capabilityAuthority.key).owner = ID) .invalidCapabilityAuthority
      require (helperProgram.key ≠ helperState.key ∧ helperProgram.key ≠ capabilityAuthority.key ∧
        helperState.key ≠ capabilityAuthority.key) .invalidHelperCapabilityClosure
      let expectedAuthority ← okOr (createProgramAddress
        [capabilityAuthoritySeed, engineState.toList, [capabilityAuthorityBump]] ID)
        .invalidCapabilityAuthority
      require (expectedAuthority = capabilityAuthority.key) .invalidCapabilityAuthority
      let marker ← loadMarker L capabilityAuthority.key
      require (marker = engineState) .invalidCapabilityAuthority
      let amount ← helperAmount payload
      return some {
        programId := helperProgram.key
        accounts := [.new helperState.key false, .newReadonly capabilityAuthority.key true]
        data := helperIncrementDiscriminator ++ (u64LeBytes amount).toList }
    | _ => .error .invalidHelperCapabilityClosure

/-- The framework's checks and the handler's, up to the quote. -/
def authenticate (top : Introspection) (accounts : Evaluate) (opaqueAccounts : List AccountInfo)
    (wireRequest : List UInt8) : EngineResult (EngineRequest × EngineState) := do
  let state ← loadEngineState L accounts.engineState.key
  require (accounts.engineState.isWritable = true) .accountNotMutable
  require (accounts.instructionsSysvar.key = instructionsSysvarId) .invalidInstructionsSysvar
  requireDirectCoreCpi top
  let request ← (Wire.Generated.decodeRequest wireRequest).mapError fun _ => .invalidRequestEncoding
  require (opaqueAccounts.length ≤ maxOpaqueCapabilities) .tooManyCapabilities
  require (opaqueAccounts.length = request.opaqueAccountCount.toNat) .capabilityCountMismatch
  require (state.market = request.market) .marketMismatch
  require (state.revision = request.engineRevision) .revisionMismatch
  let observedCapabilityHash ← (Wire.Generated.computeCapabilityHash ID
    (capabilityDescriptor L accounts.engineState ::
      capabilityDescriptor L accounts.instructionsSysvar ::
      opaqueAccounts.map (capabilityDescriptor L))).mapError fun _ => .capabilityHashComputationFailed
  require (observedCapabilityHash = request.capabilityHash) .capabilityHashMismatch
  return (request, state)

def evaluate (top : Introspection) (accounts : Evaluate) (opaqueAccounts : List AccountInfo)
    (wireRequest : List UInt8) : EngineResult Evaluation := do
  let (request, state) ← authenticate L top accounts opaqueAccounts wireRequest
  let quote ← quoteExactIn request.accountedInputBefore request.accountedOutputBefore
    request.amountIn state.lpFeeBps
  let amountOut := modeAmountOut state.mode quote.amountOut
  let helper ← helperInstruction L (request.payload.toList.take request.payloadLen.toNat)
    opaqueAccounts accounts.engineState.key state.capabilityAuthorityBump
  -- The escalation this mode attempts is refused by the runtime, which fails the whole call.
  require (state.mode ≠ modeHostileReadonlyEscalation) .hostileCpiUnexpectedlySucceeded
  let next ← advance state request amountOut
  let returned ← emitReceipt state.mode
    { requestHash := request.requestHash, amountOut, stateSequence := next.sequence }
  return { helper, stored := (accounts.engineState.key, next), returned }

/-- The dispatch to `evaluate`, the entrypoint a call by a Core reaches. -/
def process (top : Introspection) (accounts : List AccountInfo) (data : List UInt8) :
    EngineResult Evaluation := do
  require (data.take 8 = Wire.evaluateDiscriminator.toList) .instructionFallbackNotFound
  require (Wire.Generated.engineRequestLen ≤ (data.drop 8).length) .instructionDidNotDeserialize
  match accounts with
  | engineState :: instructionsSysvar :: opaqueAccounts =>
    evaluate L top ⟨engineState, instructionsSysvar⟩ opaqueAccounts
      ((data.drop 8).take Wire.Generated.engineRequestLen)
  | _ => .error .accountNotEnoughKeys

/-- The engine as a callee of the transaction `top` describes. The nested call to the helper runs
before the state is stored, and the return data is the helper's unless the engine sets its own. -/
def respond {programId : Pubkey} (top : Introspection) (helper : Callee σ programId) :
    Callee σ programId := fun ix L => do
  let e ← (process L top ix.presented ix.data).toOption
  let nested ← match e.helper with
    | none => some ⟨[], none⟩
    | some call => helper call L
  return {
    actions := nested.actions ++ [.write ID e.stored.1 ID false e.stored.2.trySerialize]
    returned := match e.returned with
      | none => nested.returned
      | some data => some (ID, data) }

end

end ProgrammableSolana.Engines.GeneratedPlan
