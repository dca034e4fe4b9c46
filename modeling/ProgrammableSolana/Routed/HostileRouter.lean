import ProgrammableSolana.Engines.RoutedPlan
import ProgrammableSolana.Routed.Entrypoint

/-! The permissionless router: it forwards an account list and instruction data to the Core, and in
its hostile modes tries what has to fail without a signer of its own. -/
namespace ProgrammableSolana.Routed.HostileRouter

open ProgrammableSolana.Lib ProgrammableSolana.Solana ProgrammableSolana.Core

/-- `F62maceZqpLAayyBLsXNGdrmKg9cZWdpSDbzoHuNgk6Q`. -/
def ID : Pubkey :=
  ⟨[209, 77, 133, 82, 152, 149, 157, 214, 111, 25, 4, 17, 119, 15, 73, 138, 68, 4, 3, 15, 129, 131,
    144, 138, 187, 153, 227, 2, 42, 255, 197, 45], rfl⟩

def maxForwardedAccounts : ℕ := 64

def maxForwardedInstructionDataLen : ℕ := 10240

inductive RouterMode where
  | forwardOnce
  | forwardTwice
  | attemptSpendDrain (sourceIndex destinationIndex spendAuthorityIndex tokenProgramIndex : UInt8)
      (amount : UInt64)
  | forwardThenReuseCallback (helperProgramIndex helperStateIndex callbackAuthorityIndex : UInt8)
      (amount : UInt64)
  deriving DecidableEq

structure RouteProbeArgs where
  mode : RouterMode
  coreInstructionData : List UInt8

inductive RouterError where
  | invalidCoreProgram
  | tooManyForwardedAccounts
  | invalidCoreInstructionData
  | invalidAccountIndex
  | aliasedAttackRole
  | invalidProbeAmount
  | invalidDrainClosure
  | spendAuthorityUnexpectedlyPrivileged
  | invalidTokenProgram
  | replayUnexpectedlySucceeded
  | spendDrainUnexpectedlySucceeded
  | invalidHelperProgram
  | invalidHelperState
  | callbackSignerLeaked
  | callbackReuseUnexpectedlySucceeded
  deriving DecidableEq, Repr

/-- How a route fails: in the router, in a call of another program or in its call of the Core. -/
inductive RouteError where
  | instructionFallbackNotFound
  | instructionDidNotDeserialize
  | accountNotEnoughKeys
  | router (e : RouterError)
  | runtime (e : RuntimeError)
  | core (e : CallError ProgramError)
  deriving DecidableEq, Repr

section Arguments

def routeDiscriminator : Bytes 8 := ⟨[229, 23, 203, 151, 122, 227, 173, 42], rfl⟩

/-- A Borsh enumeration: the position of the constructor, then its fields. -/
def readRouterMode (data : List UInt8) : Reader Unit RouterMode := do
  let tag ← readU8 data
  if tag = 0 then
    return .forwardOnce
  else if tag = 1 then
    return .forwardTwice
  else if tag = 2 then
    let sourceIndex ← readU8 data
    let destinationIndex ← readU8 data
    let spendAuthorityIndex ← readU8 data
    let tokenProgramIndex ← readU8 data
    let amount ← readU64 data
    return .attemptSpendDrain sourceIndex destinationIndex spendAuthorityIndex tokenProgramIndex
      amount
  else if tag = 3 then
    let helperProgramIndex ← readU8 data
    let helperStateIndex ← readU8 data
    let callbackAuthorityIndex ← readU8 data
    let amount ← readU64 data
    return .forwardThenReuseCallback helperProgramIndex helperStateIndex callbackAuthorityIndex
      amount
  else .fail (.codec ())

def readRouteProbeArgs (data : List UInt8) : Reader Unit RouteProbeArgs := do
  let mode ← readRouterMode data
  let coreInstructionData ← readVec data
  return { mode, coreInstructionData }

/-- The instruction data by which the router is asked to forward `data` once. -/
def forwardOnceData (data : List UInt8) : List UInt8 :=
  routeDiscriminator.toList ++ ([0] ++ (leBytes 4 data.length ++ data))

private theorem readVec_append {ε : Type} {payload : List UInt8} (h : payload.length < 2 ^ 32)
    (before : List UInt8) :
    (readVec (before ++ (leBytes 4 payload.length ++ payload)) : Reader ε (List UInt8)).run
      before.length = (.ok payload, before.length + 4 + payload.length) := by
  have hlength : ofLe (leBytes 4 payload.length) = payload.length := by
    rw [ofLe_leBytes]
    exact Nat.mod_eq_of_lt (h.trans_eq (by norm_num))
  have hsize : (before ++ (leBytes 4 payload.length ++ payload)).length =
      before.length + 4 + payload.length := by
    simp only [List.length_append, length_leBytes]
    omega
  have hfirst : (readArray (before ++ (leBytes 4 payload.length ++ payload)) 4 :
      Reader ε (Bytes 4)).run before.length =
        (.ok ⟨leBytes 4 payload.length, length_leBytes 4 _⟩, before.length + 4) := by
    apply readArray_ok_iff.mpr
    refine ⟨rfl, by omega, ?_⟩
    rw [List.drop_left]
    exact List.take_left' (length_leBytes 4 _)
  have hsecond : (readArray (before ++ (leBytes 4 payload.length ++ payload)) payload.length :
      Reader ε (Bytes payload.length)).run (before.length + 4) =
        (.ok ⟨payload, rfl⟩, before.length + 4 + payload.length) := by
    apply readArray_ok_iff.mpr
    refine ⟨rfl, by omega, ?_⟩
    rw [← List.drop_drop, List.drop_left, List.drop_left' (length_leBytes 4 _)]
    exact List.take_length
  unfold readVec
  rw [Exec.run_bind_of_ok hfirst]
  dsimp only
  rw [hlength, Exec.run_bind_of_ok hsecond]
  rfl

theorem readRouteProbeArgs_forwardOnce {data : List UInt8} (h : data.length < 2 ^ 32) :
    deserialize (readRouteProbeArgs ([0] ++ (leBytes 4 data.length ++ data))) =
      some ⟨.forwardOnce, data⟩ := by
  have hmode : (readRouterMode ([0] ++ (leBytes 4 data.length ++ data))).run 0 =
      (.ok .forwardOnce, 1) := by
    unfold readRouterMode
    have htag : (readU8 ([0] ++ (leBytes 4 data.length ++ data)) : Reader Unit UInt8).run 0 =
        (.ok 0, 1) := rfl
    rw [Exec.run_bind_of_ok htag]
    rfl
  have hvec : (readVec ([0] ++ (leBytes 4 data.length ++ data)) : Reader Unit (List UInt8)).run 1 =
      (.ok data, 1 + 4 + data.length) := readVec_append h [0]
  unfold deserialize Reader.decode readRouteProbeArgs
  rw [Exec.run_bind_of_ok hmode]
  have hrest := Exec.run_bind_of_ok (f := fun coreInstructionData =>
    (pure ⟨.forwardOnce, coreInstructionData⟩ : Reader Unit RouteProbeArgs)) hvec
  rw [hrest]
  rfl

end Arguments

section Metas

/-- The flags of all positions of the account together. -/
def normalizedMeta (account : AccountInfo) (accounts : List AccountInfo) : AccountMeta :=
  let flags := (accounts.filter fun candidate => candidate.key = account.key).foldl
    (fun flags candidate => (flags.1 || candidate.isWritable, flags.2 || candidate.isSigner))
    (false, false)
  if flags.1 then .new account.key flags.2 else .newReadonly account.key flags.2

def normalizedMetas (accounts : List AccountInfo) : List AccountMeta :=
  accounts.map fun account => normalizedMeta account accounts

private theorem foldl_flags (accounts : List AccountInfo) (writable signer : Bool) :
    accounts.foldl (fun flags candidate =>
        (flags.1 || candidate.isWritable, flags.2 || candidate.isSigner)) (writable, signer) =
      (writable || accounts.any AccountInfo.isWritable, signer || accounts.any AccountInfo.isSigner) := by
  induction accounts generalizing writable signer with
  | nil => simp
  | cons account accounts ih =>
    rw [List.foldl_cons, ih, List.any_cons, List.any_cons, Bool.or_assoc, Bool.or_assoc]

/-- The meta of a position grants the union of what the positions of the account hold. -/
theorem normalizedMeta_eq (account : AccountInfo) (accounts : List AccountInfo) :
    normalizedMeta account accounts = ⟨account.key,
      accounts.any fun other => other.key = account.key && other.isSigner,
      accounts.any fun other => other.key = account.key && other.isWritable⟩ := by
  have hany : ∀ flag : AccountInfo → Bool,
      (accounts.filter fun candidate => candidate.key = account.key).any flag =
        accounts.any fun other => other.key = account.key && flag other := by
    intro flag
    exact List.any_filter
  unfold normalizedMeta
  rw [foldl_flags, hany, hany]
  dsimp only
  rw [Bool.false_or, Bool.false_or]
  cases accounts.any fun other => other.key = account.key && other.isWritable with
  | true => rfl
  | false => rfl

theorem normalizedMetas_of_unioned {accounts : List AccountInfo} (h : Unioned accounts) :
    normalizedMetas accounts =
      accounts.map fun info => ⟨info.key, info.isSigner, info.isWritable⟩ := by
  unfold normalizedMetas
  apply List.map_congr_left
  intro info hinfo
  obtain ⟨hsigner, hwritable⟩ := h info hinfo
  rw [normalizedMeta_eq, ← hsigner, ← hwritable]

end Metas

section Checks

variable (L : Ledger)

def accountAt (accounts : List AccountInfo) (index : UInt8) : Except RouterError AccountInfo :=
  okOr accounts[index.toNat]? .invalidAccountIndex

def requireDistinct (keys : List Pubkey) : Except RouterError Unit :=
  require keys.Nodup .aliasedAttackRole

/-- `validate_router_envelope`, and the address of the Core before it. -/
def validateRouterEnvelope (coreProgram : AccountInfo) (accounts : List AccountInfo) :
    Except RouterError Unit := do
  require (coreProgram.key = Routed.ID) .invalidCoreProgram
  require ((L coreProgram.key).executable = true) .invalidCoreProgram
  require (coreProgram.isSigner = false ∧ coreProgram.isWritable = false) .invalidCoreProgram
  require (accounts.length ≤ maxForwardedAccounts) .tooManyForwardedAccounts

/-- The checks of `attempt_spend_drain` and the transfer they lead to. -/
def spendDrain (accounts : List AccountInfo)
    (sourceIndex destinationIndex spendAuthorityIndex tokenProgramIndex : UInt8)
    (amount : UInt64) : Except RouterError TokenOp := do
  require (0 < amount) .invalidProbeAmount
  let source ← accountAt accounts sourceIndex
  let destination ← accountAt accounts destinationIndex
  let spendAuthority ← accountAt accounts spendAuthorityIndex
  let tokenProgram ← accountAt accounts tokenProgramIndex
  requireDistinct [source.key, destination.key, spendAuthority.key, tokenProgram.key]
  require (source.isWritable = true ∧ source.isSigner = false ∧ (L source.key).executable = false)
    .invalidDrainClosure
  require (destination.isWritable = true ∧ destination.isSigner = false ∧
    (L destination.key).executable = false) .invalidDrainClosure
  require (spendAuthority.isWritable = false ∧ spendAuthority.isSigner = false ∧
    (L spendAuthority.key).executable = false) .spendAuthorityUnexpectedlyPrivileged
  require (tokenProgram.key = Solana.tokenProgram) .invalidTokenProgram
  require ((L tokenProgram.key).executable = true ∧ tokenProgram.isWritable = false ∧
    tokenProgram.isSigner = false) .invalidTokenProgram
  return .transfer source.key destination.key spendAuthority.key amount

/-- The checks of `attempt_callback_reuse`, and the call they lead to with its infos. -/
def callbackReuse (accounts : List AccountInfo)
    (helperProgramIndex helperStateIndex callbackAuthorityIndex : UInt8) (amount : UInt64) :
    Except RouterError (Instruction × List AccountInfo) := do
  require (0 < amount) .invalidProbeAmount
  let helperProgram ← accountAt accounts helperProgramIndex
  let helperState ← accountAt accounts helperStateIndex
  let callbackAuthority ← accountAt accounts callbackAuthorityIndex
  requireDistinct [helperProgram.key, helperState.key, callbackAuthority.key]
  require (helperProgram.key = Engines.RoutedPlan.disposableHelperProgramId) .invalidHelperProgram
  require ((L helperProgram.key).executable = true ∧ helperProgram.isWritable = false ∧
    helperProgram.isSigner = false) .invalidHelperProgram
  require (helperState.isWritable = true ∧ helperState.isSigner = false ∧
    (L helperState.key).executable = false) .invalidHelperState
  require ((L helperState.key).owner = Engines.RoutedPlan.disposableHelperProgramId)
    .invalidHelperState
  require (callbackAuthority.isWritable = false ∧ callbackAuthority.isSigner = false ∧
    (L callbackAuthority.key).executable = false) .callbackSignerLeaked
  return ({ programId := Engines.RoutedPlan.disposableHelperProgramId
            accounts := [normalizedMeta helperState accounts,
              normalizedMeta callbackAuthority accounts]
            data := Engines.helperIncrementDiscriminator ++ (u64LeBytes amount).toList },
    [helperState, callbackAuthority, helperProgram])

end Checks

section

variable [Crypto]

/-- What a route runs in: the slot, the programs the Core calls and the helper the router calls. -/
structure RouterEnv where
  slot : UInt64
  callee : Callee CoreState Routed.ID
  helper : Callee CoreState ID

/-- `forward_core`. The router is the one program on the call stack. -/
def forwardCore (env : RouterEnv) (coreProgram : AccountInfo) (accounts : List AccountInfo)
    (instructionData : List UInt8) : Exec Core.World RouteError Unit := do
  .ensure (instructionData ≠ [] ∧ instructionData.length ≤ maxForwardedInstructionDataLen)
    (.router .invalidCoreInstructionData)
  let instruction : Instruction :=
    { programId := Routed.ID, accounts := normalizedMetas accounts, data := instructionData }
  ((Routed.entry env.slot env.callee).invoke [ID] (coreProgram :: accounts) instruction
    (accounts ++ [coreProgram])).mapError .core

def attemptSpendDrain (coreProgram : AccountInfo) (accounts : List AccountInfo)
    (sourceIndex destinationIndex spendAuthorityIndex tokenProgramIndex : UInt8)
    (amount : UInt64) : Exec Core.World RouteError Unit := do
  let w ← .get
  let op ← .ofExcept ((spendDrain w.ledger accounts sourceIndex destinationIndex spendAuthorityIndex
    tokenProgramIndex amount).mapError .router)
  (tokenInvoke (coreProgram :: accounts) [] op none).mapError .runtime
  .fail (.router .spendDrainUnexpectedlySucceeded)

def attemptCallbackReuse (env : RouterEnv) (coreProgram : AccountInfo)
    (accounts : List AccountInfo)
    (helperProgramIndex helperStateIndex callbackAuthorityIndex : UInt8) (amount : UInt64) :
    Exec Core.World RouteError Unit := do
  let w ← .get
  let call ← .ofExcept ((callbackReuse w.ledger accounts helperProgramIndex helperStateIndex
    callbackAuthorityIndex amount).mapError .router)
  (invokeSigned ID env.helper (coreProgram :: accounts) call.1 call.2 []).mapError .runtime
  .fail (.router .callbackReuseUnexpectedlySucceeded)

/-- The instruction on its account list: the Core, and what is forwarded to it. -/
def route (env : RouterEnv) (infos : List AccountInfo) (args : RouteProbeArgs) :
    Exec Core.World RouteError Unit :=
  match infos with
  | [] => .fail .accountNotEnoughKeys
  | coreProgram :: accounts => do
    let w ← .get
    .ofExcept ((validateRouterEnvelope w.ledger coreProgram accounts).mapError .router)
    match args.mode with
    | .forwardOnce => forwardCore env coreProgram accounts args.coreInstructionData
    | .forwardTwice =>
      forwardCore env coreProgram accounts args.coreInstructionData
      forwardCore env coreProgram accounts args.coreInstructionData
      .fail (.router .replayUnexpectedlySucceeded)
    | .attemptSpendDrain sourceIndex destinationIndex spendAuthorityIndex tokenProgramIndex amount =>
      attemptSpendDrain coreProgram accounts sourceIndex destinationIndex spendAuthorityIndex
        tokenProgramIndex amount
    | .forwardThenReuseCallback helperProgramIndex helperStateIndex callbackAuthorityIndex amount =>
      forwardCore env coreProgram accounts args.coreInstructionData
      attemptCallbackReuse env coreProgram accounts helperProgramIndex helperStateIndex
        callbackAuthorityIndex amount

/-- The router as a program. -/
def program (env : RouterEnv) : Program CoreState CoreEvent RouteError := fun _ infos data =>
  if data.take 8 = routeDiscriminator.toList then
    match deserialize (readRouteProbeArgs (data.drop 8)) with
    | some args => route env infos args
    | none => .fail .instructionDidNotDeserialize
  else .fail .instructionFallbackNotFound

end

end ProgrammableSolana.Routed.HostileRouter
