import ProgrammableSolana.Engines.Quote
import ProgrammableSolana.Solana.Programs
import ProgrammableSolana.Wire.Routed

/-! The reference engine of the routed Core: its state account, its three phase entrypoints and
the receipt each of its modes answers with. -/
namespace ProgrammableSolana.Engines.RoutedPlan

open ProgrammableSolana.Lib ProgrammableSolana.Solana ProgrammableSolana.Engines
open ProgrammableSolana.Wire (CapabilityDescriptor maxOpaqueAccounts maxOpaquePayloadLen)
open ProgrammableSolana.Wire.Routed (EngineRequest ExecutionBinding EngineReceipt timingSingle
  timingPrepareCommit phaseTransition phasePrepare phaseCommit)

/-- `5UNyG5GQpPwyoDgsvt4JzdqJxJzPh52pVbUDjEa5Gikh`. -/
def ID : Pubkey :=
  ⟨[66, 114, 69, 103, 59, 174, 233, 96, 42, 59, 183, 99, 83, 92, 157, 212, 31, 132, 17, 254, 93, 63,
    93, 183, 1, 63, 106, 46, 125, 214, 119, 34], rfl⟩

def disposableCoreProgramId : Pubkey := Wire.Routed.coreProgramId

/-- `6QXXm7aqjRxQGJ6V3nvtS5taHuojM9SisVrHg3Xrj1Vj`. -/
def disposableHelperProgramId : Pubkey :=
  ⟨[80, 81, 80, 99, 202, 174, 243, 184, 104, 158, 186, 251, 17, 93, 137, 136, 217, 182, 9, 150, 225,
    141, 98, 62, 50, 182, 115, 138, 7, 22, 25, 226], rfl⟩

def callbackAuthoritySeed : List UInt8 := ascii "engine-callback:v0"

def maxOpaqueCapabilities : ℕ := maxOpaqueAccounts

def noCompletedPhase : UInt8 := 255

def modeAccept : UInt8 := 0

def modeMissingReceipt : UInt8 := 1

def modeWrongIntentDigest : UInt8 := 2

def modeWrongExecutionDigest : UInt8 := 3

def modeMalformedReceipt : UInt8 := 4

def modeZeroOutput : UInt8 := 5

def modeOversizedOutput : UInt8 := 6

def modeWrongReceiptMagic : UInt8 := 7

def modeWrongReceiptVersion : UInt8 := 8

def modeTrailingReceiptByte : UInt8 := 9

def modeWrongReceiptPhase : UInt8 := 10

def modeLateCommitFailure : UInt8 := 11

def isSupportedMode (mode : UInt8) : Prop := mode ≤ modeLateCommitFailure

instance (mode : UInt8) : Decidable (isSupportedMode mode) := by
  unfold isSupportedMode
  infer_instance

structure EngineState where
  authority : Pubkey
  market : Pubkey
  revision : UInt64
  lpFeeBps : UInt16
  timingMode : UInt8
  sequence : UInt64
  lastIntentDigest : Hash
  lastPhaseContextDigest : Hash
  lastExecutionDigest : Hash
  lastAmountOut : UInt64
  lastPhase : UInt8
  mode : UInt8
  deriving DecidableEq

def engineStateLen : ℕ := 8 + (32 + 32 + 8 + 2 + 1 + 8 + 32 + 32 + 32 + 8 + 1 + 1)

/-- `try_serialize`. -/
def EngineState.trySerialize (s : EngineState) : List UInt8 :=
  [engineStateDiscriminator.toList, s.authority.toList, s.market.toList,
    (u64LeBytes s.revision).toList, (u16LeBytes s.lpFeeBps).toList, [s.timingMode],
    (u64LeBytes s.sequence).toList, s.lastIntentDigest.toList, s.lastPhaseContextDigest.toList,
    s.lastExecutionDigest.toList, (u64LeBytes s.lastAmountOut).toList, [s.lastPhase],
    [s.mode]].flatten

/-- `try_deserialize`. -/
def readEngineState (data : List UInt8) : Reader EngineError EngineState := do
  check (require ((← readArray data 8) = engineStateDiscriminator) .invalidEngineState)
  let authority ← readArray data 32
  let market ← readArray data 32
  let revision ← readU64 data
  let lpFeeBps ← readU16 data
  let timingMode ← readU8 data
  let sequence ← readU64 data
  let lastIntentDigest ← readArray data 32
  let lastPhaseContextDigest ← readArray data 32
  let lastExecutionDigest ← readArray data 32
  let lastAmountOut ← readU64 data
  let lastPhase ← readU8 data
  let mode ← readU8 data
  return { authority, market, revision, lpFeeBps, timingMode, sequence, lastIntentDigest,
           lastPhaseContextDigest, lastExecutionDigest, lastAmountOut, lastPhase, mode }

/-- The accounts of a phase entrypoint. -/
structure EvaluatePhase where
  engineState : AccountInfo
  callbackAuthority : AccountInfo

/-- What a phase entrypoint comes to: the nested call, the state it stores and the return data
it sets, each where there is one. -/
structure Evaluation where
  helper : Option Instruction
  stored : Option (Pubkey × EngineState)
  returned : Option (List UInt8)

/-- This engine's copy of `quote_exact_in`. -/
def quoteExactIn (reserveIn reserveOut grossInput : UInt64) (lpFeeBps : UInt16) :
    EngineResult CpmmQuote :=
  Engines.quoteExactIn reserveIn reserveOut grossInput lpFeeBps

section

variable {σ : Type} (L : Ledger σ)

def loadEngineState (key : Pubkey) : EngineResult EngineState := do
  require ((L key).owner = ID) .invalidEngineState
  match (L key).data with
  | .raw data => do
    require (data.length = engineStateLen) .invalidEngineState
    (readEngineState data).decode.mapError fun _ => .invalidEngineState
  | _ => .error .invalidEngineState

def validateFixedAccountPrivileges (accounts : EvaluatePhase) (opaqueAccounts : List AccountInfo)
    (phase : UInt8) : EngineResult Unit := do
  require ((L accounts.engineState.key).executable = false) .invalidEngineState
  require (accounts.engineState.isSigner = false) .engineStateSigner
  require (accounts.callbackAuthority.isSigner = true ∧
    accounts.callbackAuthority.isWritable = false ∧
    (L accounts.callbackAuthority.key).executable = false) .invalidCallbackPrivileges
  require (accounts.engineState.key ≠ accounts.callbackAuthority.key) .aliasedCallbackAuthority
  if phase = phasePrepare then
    require (accounts.engineState.isWritable = false) .prepareStateMustBeReadOnly
  else if phase = phaseTransition ∨ phase = phaseCommit then
    require (accounts.engineState.isWritable = true) .mutationStateMustBeWritable
  else .error .entrypointPhaseMismatch
  opaqueAccounts.forM fun account => do
    require (account.isSigner = false) .opaqueSignerForbidden
    require (account.key ≠ accounts.callbackAuthority.key) .aliasedCallbackAuthority
    require (¬ (phase = phasePrepare ∧ account.isWritable = true)) .prepareCapabilityWritable

/-- The seeds of the callback address the engine expects, without the bump. -/
def callbackSeeds (engineState : Pubkey) (binding : ExecutionBinding) : List (List UInt8) :=
  [callbackAuthoritySeed, ID.toList, engineState.toList, binding.market.toList,
    binding.domain.toList, binding.intentDigest.toList, [binding.phase]]

def authenticateCallbackAuthority [Crypto] (engineState callback : Pubkey)
    (binding : ExecutionBinding) : EngineResult Unit := do
  let (expectedCallback, _) ← okOr
    (findProgramAddress (callbackSeeds engineState binding) disposableCoreProgramId)
    .invalidCallbackAuthority
  require (expectedCallback = callback) .invalidCallbackAuthority

def capabilityDescriptor (account : AccountInfo) : CapabilityDescriptor where
  key := account.key
  owner := (L account.key).owner
  isWritable := account.isWritable
  isSigner := account.isSigner
  isExecutable := (L account.key).executable

/-- `maybe_invoke_helper`, up to the call itself. -/
def helperInstruction (payload : List UInt8) (opaqueAccounts : List AccountInfo)
    (engineState callbackAuthority : Pubkey) : EngineResult (Option Instruction) :=
  if payload.head? ≠ some helperPayloadTag then .ok none
  else
    match opaqueAccounts with
    | helperProgram :: helperState :: _ => do
      require (opaqueAccounts.length ≤ maxOpaqueCapabilities) .invalidHelperCapabilityClosure
      require ((L helperProgram.key).executable = true ∧ helperProgram.isWritable = false ∧
        helperProgram.isSigner = false) .invalidHelperProgram
      require (helperProgram.key = disposableHelperProgramId) .invalidHelperProgram
      require (helperState.isWritable = true ∧ helperState.isSigner = false ∧
        (L helperState.key).executable = false) .invalidHelperState
      require ((L helperState.key).owner = helperProgram.key) .invalidHelperState
      require (helperProgram.key ≠ helperState.key ∧ helperProgram.key ≠ callbackAuthority ∧
        helperState.key ≠ callbackAuthority ∧ helperProgram.key ≠ engineState ∧
        helperState.key ≠ engineState) .invalidHelperCapabilityClosure
      let amount ← helperAmount payload
      return some {
        programId := helperProgram.key
        accounts := [.new helperState.key false, .newReadonly callbackAuthority true]
        data := helperIncrementDiscriminator ++ (u64LeBytes amount).toList }
    | _ => .error .invalidHelperCapabilityClosure

/-- `emit_receipt`: the return data a mode sets for a receipt. -/
def emitReceipt (mode : UInt8) (receipt : EngineReceipt) : EngineResult (Option (List UInt8)) :=
  if mode = modeMissingReceipt then .ok none
  else do
    let encode (r : EngineReceipt) : EngineResult (List UInt8) :=
      (Wire.Routed.encodeReceipt r).mapError fun _ => .invalidReceiptEncoding
    let flip (bytes : Bytes 32) : Bytes 32 := bytes.modify 0 (· ^^^ 1)
    let encoded ← encode receipt
    if mode = modeAccept ∨ mode = modeZeroOutput ∨ mode = modeOversizedOutput ∨
        mode = modeLateCommitFailure then
      return some encoded
    else if mode = modeWrongIntentDigest then
      return some (← encode { receipt with intentDigest := flip receipt.intentDigest })
    else if mode = modeWrongExecutionDigest then
      return some (← encode { receipt with executionDigest := flip receipt.executionDigest })
    else if mode = modeMalformedReceipt then
      return some encoded.dropLast
    else if mode = modeWrongReceiptMagic then
      return some (encoded.modify 0 (· ^^^ 1))
    else if mode = modeWrongReceiptVersion then
      return some (encoded.modify 8 (· ^^^ 1))
    else if mode = modeTrailingReceiptByte then
      return some (encoded ++ [0])
    else if mode = modeWrongReceiptPhase then
      return some (← encode { receipt with phase :=
        if receipt.phase = phaseTransition then phasePrepare else phaseTransition })
    else .error .invalidMode

variable [Crypto]

/-- The checks of a phase entrypoint; the result is the request and the engine's state. -/
def authenticatePhase (accounts : EvaluatePhase) (opaqueAccounts : List AccountInfo)
    (expectedPhase : UInt8) (wireRequest : List UInt8) :
    EngineResult (EngineRequest × EngineState) := do
  let request ← (Wire.Routed.decodeEngineRequest wireRequest).mapError fun _ =>
    .invalidRequestEncoding
  let binding := request.binding
  require (binding.phase = expectedPhase) .entrypointPhaseMismatch
  require (opaqueAccounts.length ≤ maxOpaqueCapabilities) .tooManyCapabilities
  require (opaqueAccounts.length = binding.opaqueAccountCount.toNat) .capabilityCountMismatch
  validateFixedAccountPrivileges L accounts opaqueAccounts binding.phase
  let state ← loadEngineState L accounts.engineState.key
  require (isSupportedMode state.mode) .invalidMode
  require (state.market = binding.market) .marketMismatch
  require (state.revision = binding.engineRevision) .revisionMismatch
  (Wire.Routed.validatePhaseForTiming state.timingMode binding.phase).mapError fun _ =>
    .invalidPhaseForTiming
  require (state.sequence = binding.preSequence) .sequenceMismatch
  authenticateCallbackAuthority accounts.engineState.key accounts.callbackAuthority.key binding
  let observedCapabilityHash ← (Wire.Routed.computeCapabilityHash ID
    (capabilityDescriptor L accounts.engineState :: opaqueAccounts.map (capabilityDescriptor L))).mapError
    fun _ => .capabilityHashComputationFailed
  require (observedCapabilityHash = binding.phaseCapabilityHash) .capabilityHashMismatch
  let observedExecutionDigest ← (Wire.Routed.computeExecutionDigest binding).mapError fun _ =>
    .executionDigestComputationFailed
  require (observedExecutionDigest = request.executionDigest) .executionDigestMismatch
  return (request, state)

/-- The output a mode names for a quote. -/
def modeAmountOut (mode : UInt8) (quoted : UInt64) : UInt64 :=
  if mode = modeZeroOutput then 0
  else if mode = modeOversizedOutput then UInt64.ofNat (2 ^ 64 - 1)
  else quoted

/-- The state after an evaluation outside PREPARE. -/
def advance (state : EngineState) (request : EngineRequest) (amountOut : UInt64) :
    EngineResult EngineState := do
  let sequence ← okOr (checkedAdd state.sequence 1) .sequenceOverflow
  return { state with
    sequence
    lastIntentDigest := request.binding.intentDigest
    lastPhaseContextDigest := request.binding.phaseContextDigest
    lastExecutionDigest := request.executionDigest
    lastAmountOut := amountOut
    lastPhase := request.binding.phase }

def evaluatePhase (accounts : EvaluatePhase) (opaqueAccounts : List AccountInfo)
    (expectedPhase : UInt8) (wireRequest : List UInt8) : EngineResult Evaluation := do
  let (request, state) ← authenticatePhase L accounts opaqueAccounts expectedPhase wireRequest
  let binding := request.binding
  let quote ← quoteExactIn binding.accountedInputBefore binding.accountedOutputBefore
    binding.amountIn state.lpFeeBps
  let amountOut := modeAmountOut state.mode quote.amountOut
  let receipt (stateSequence : UInt64) : EngineReceipt :=
    { phase := binding.phase, intentDigest := binding.intentDigest,
      executionDigest := request.executionDigest, amountOut, stateSequence }
  if binding.phase = phasePrepare then
    let returned ← emitReceipt state.mode (receipt state.sequence)
    return { helper := none, stored := none, returned }
  else
    let helper ← helperInstruction L (binding.payload.toList.take binding.payloadLen.toNat)
      opaqueAccounts accounts.engineState.key accounts.callbackAuthority.key
    let next ← advance state request amountOut
    require (¬ (state.mode = modeLateCommitFailure ∧ binding.phase = phaseCommit))
      .deliberateLateCommitFailure
    let returned ← emitReceipt state.mode (receipt next.sequence)
    return { helper, stored := some (accounts.engineState.key, next), returned }

/-- The dispatch to the phase entrypoints. -/
def process (accounts : List AccountInfo) (data : List UInt8) : EngineResult Evaluation := do
  let phase ←
    if data.take 8 = Wire.Routed.engineTransitionDiscriminator.toList then .ok phaseTransition
    else if data.take 8 = Wire.Routed.enginePrepareDiscriminator.toList then .ok phasePrepare
    else if data.take 8 = Wire.Routed.engineCommitDiscriminator.toList then .ok phaseCommit
    else .error .instructionFallbackNotFound
  require (Wire.Routed.engineRequestLen ≤ (data.drop 8).length) .instructionDidNotDeserialize
  match accounts with
  | engineState :: callbackAuthority :: opaqueAccounts =>
    evaluatePhase L ⟨engineState, callbackAuthority⟩ opaqueAccounts phase
      ((data.drop 8).take Wire.Routed.engineRequestLen)
  | _ => .error .accountNotEnoughKeys

/-- The engine as a callee. The nested call to the helper runs before the state is stored, and
the return data is the helper's unless the engine sets its own. -/
def respond {programId : Pubkey} (helper : Callee σ programId) : Callee σ programId :=
  fun ix L => do
    let e ← (process L ix.presented ix.data).toOption
    let nested ← match e.helper with
      | none => some ⟨[], none⟩
      | some call => helper call L
    return {
      actions := nested.actions ++ match e.stored with
        | none => []
        | some (key, state) => [.write ID key ID false state.trySerialize]
      returned := match e.returned with
        | none => nested.returned
        | some data => some (ID, data) }

end

end ProgrammableSolana.Engines.RoutedPlan
