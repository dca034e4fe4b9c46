import ProgrammableSolana.Core.Deposit
import ProgrammableSolana.Core.Initialize
import ProgrammableSolana.Routed.Execute
import ProgrammableSolana.Solana.Submission

/-! The routed Core as a program: the instruction data selects one of its four handlers and carries
the arguments, the account list is split into the accounts of the handler. -/
namespace ProgrammableSolana.Routed

open ProgrammableSolana.Lib ProgrammableSolana.Solana ProgrammableSolana.Core

/-- What an instruction fails with: the framework rejects its data or its account list, or what is
loaded and run for it fails. -/
inductive ProgramError where
  | instructionFallbackNotFound
  | instructionDidNotDeserialize
  | accountNotEnoughKeys
  | handler (e : Error)
  deriving DecidableEq, Repr

def initializeMarketDomainDiscriminator : Bytes 8 := ⟨[174, 165, 224, 157, 68, 23, 200, 30], rfl⟩

def depositDiscriminator : Bytes 8 := ⟨[242, 35, 198, 137, 82, 225, 242, 182], rfl⟩

def authorizeSpendV0Discriminator : Bytes 8 := ⟨[89, 216, 240, 131, 222, 23, 230, 186], rfl⟩

def executeCallbackAuthenticatedProbeV0Discriminator : Bytes 8 :=
  ⟨[86, 252, 3, 147, 174, 28, 112, 70], rfl⟩

section Arguments

/-- A Borsh `Vec<u8>`: the length in four bytes, then the bytes. -/
def readVec {ε : Type} (data : List UInt8) : Reader ε (List UInt8) := do
  let length ← readArray data 4
  let bytes ← readArray data (ofLe length.toList)
  return bytes.toList

/-- Bytes after the last argument are ignored. -/
def deserialize {ε α : Type} (reader : Reader ε α) : Option α := reader.decode.toOption

def readInitializeMarketDomainV0Args (data : List UInt8) : Reader Empty InitializeMarketDomainV0Args := do
  let marketId ← readArray data 32
  let engineRevision ← readU64 data
  return { marketId, engineRevision }

def readDepositV0Args (data : List UInt8) : Reader Empty DepositV0Args := do
  let assetIndex ← readU8 data
  let amount ← readU64 data
  return { assetIndex, amount }

def readAuthorizeSpendV0Args (data : List UInt8) : Reader Empty AuthorizeSpendV0Args := do
  let wireIntent ← readArray data Wire.Routed.intentBindingLen
  return { wireIntent }

def readExecuteCallbackAuthenticatedProbeV0Args (data : List UInt8) :
    Reader Empty ExecuteCallbackAuthenticatedProbeV0Args := do
  let amountIn ← readU64 data
  let maxTotalInputDebit ← readU64 data
  let minOutputCredit ← readU64 data
  let maxProtocolFee ← readU64 data
  let expiresAtSlot ← readU64 data
  let authorizationNonce ← readArray data 32
  let expectedEngineSequence ← readU64 data
  let timingMode ← readU8 data
  let expectedCapabilityHash ← readArray data 32
  let opaquePayload ← readVec data
  return { amountIn, maxTotalInputDebit, minOutputCredit, maxProtocolFee, expiresAtSlot,
           authorizationNonce, expectedEngineSequence, timingMode, expectedCapabilityHash,
           opaquePayload }

end Arguments

section Accounts

def initializeAccounts : List AccountInfo → Option InitializeMarketDomainV0
  | initializer :: market :: domain :: feeLedger :: mintA :: mintB :: vaultA :: vaultB :: feeVault ::
      engineProgram :: engineState :: tokenProgram :: systemProgram :: remainingAccounts =>
    some { initializer, market, domain, feeLedger, mintA, mintB, vaultA, vaultB, feeVault,
           engineProgram, engineState, tokenProgram, systemProgram, remainingAccounts }
  | _ => none

def depositAccounts : List AccountInfo → Option DepositV0
  | provider :: market :: domain :: mint :: providerSource :: domainVault :: tokenProgram ::
      remainingAccounts =>
    some { provider, market, domain, mint, providerSource, domainVault, tokenProgram,
           remainingAccounts }
  | _ => none

def authorizeAccounts : List AccountInfo → Option AuthorizeSpendV0
  | user :: source :: mint :: spendAuthority :: tokenProgram :: remainingAccounts =>
    some { user, source, mint, spendAuthority, tokenProgram, remainingAccounts }
  | _ => none

def executeAccounts : List AccountInfo → Option ExecuteCallbackAuthenticatedProbeV0
  | market :: domain :: feeLedger :: mintA :: mintB :: userSourceA :: userDestinationB :: vaultA ::
      vaultB :: feeVault :: engineProgram :: engineState :: spendAuthority :: primaryCallback ::
      commitCallback :: tokenProgram :: remainingAccounts =>
    some { market, domain, feeLedger, mintA, mintB, userSourceA, userDestinationB, vaultA, vaultB,
           feeVault, engineProgram, engineState, tokenProgram, spendAuthority, primaryCallback,
           commitCallback, remainingAccounts }
  | _ => none

/-- How an account is loaded, of which only the failure matters where the list is too short. -/
abbrev Loader : Type := Ledger → AccountInfo → Result Unit

def Loader.unchecked : Loader := fun _ _ => .ok ()

def Loader.of {α : Type} (load : Ledger → Pubkey → Result α) : Loader := fun L info => do
  let _ ← load L info.key
  return ()

def Loader.signer : Loader := fun _ info => loadSigner info

def Loader.market : Loader := .of fun L => loadMarket L ID

def Loader.domain : Loader := .of fun L => loadDomain L ID

def Loader.feeLedger : Loader := .of fun L => loadFeeLedger L ID

def Loader.mint : Loader := .of loadMintAccount

def Loader.token : Loader := .of loadTokenAccount

def initializeLoaders : List Loader :=
  [.signer, .unchecked, .unchecked, .unchecked, .mint, .mint, .unchecked, .unchecked, .unchecked,
    .unchecked, .unchecked, loadTokenProgram]

def depositLoaders : List Loader := [.signer, .market, .domain, .mint, .token, .token]

def authorizeLoaders : List Loader := [.signer, .token, .mint, .unchecked]

def executeLoaders : List Loader :=
  [.market, .domain, .feeLedger, .mint, .mint, .token, .token, .token, .token, .token, .unchecked,
    .unchecked, .unchecked, .unchecked, .unchecked]

/-- How a list that is too short fails: at the first account that does not load, or at its end. -/
def accountsError (L : Ledger) (loaders : List Loader) (infos : List AccountInfo) : ProgramError :=
  match (loaders.zip infos).forM fun p => p.1 L p.2 with
  | .error e => .handler e
  | .ok () => .accountNotEnoughKeys

end Accounts

section Dispatch

variable [Crypto]

/-- A handler behind the framework: first the arguments, then the accounts, then the handler. -/
def runHandler {Args Accounts : Type} (args : Option Args) (accounts : Option Accounts)
    (loaders : List Loader) (infos : List AccountInfo) (handler : Accounts → Args → Handler Unit) :
    Exec Core.World ProgramError Unit := do
  let args ← .ofExcept (okOr args .instructionDidNotDeserialize)
  let w ← .get
  let accounts ← .ofExcept (okOr accounts (accountsError w.ledger loaders infos))
  (handler accounts args).mapError .handler

def processInstruction (env : Env config) (infos : List AccountInfo) (data : List UInt8) :
    Exec Core.World ProgramError Unit :=
  let rest := data.drop 8
  if data.take 8 = initializeMarketDomainDiscriminator.toList then
    runHandler (deserialize (readInitializeMarketDomainV0Args rest)) (initializeAccounts infos)
      initializeLoaders infos (handleInitializeMarketDomainV0 config)
  else if data.take 8 = depositDiscriminator.toList then
    runHandler (deserialize (readDepositV0Args rest)) (depositAccounts infos) depositLoaders infos
      (handleDepositV0 config)
  else if data.take 8 = authorizeSpendV0Discriminator.toList then
    runHandler (deserialize (readAuthorizeSpendV0Args rest)) (authorizeAccounts infos)
      authorizeLoaders infos (handleAuthorizeSpendV0 env)
  else if data.take 8 = executeCallbackAuthenticatedProbeV0Discriminator.toList then
    runHandler (deserialize (readExecuteCallbackAuthenticatedProbeV0Args rest))
      (executeAccounts infos) executeLoaders infos (handleExecuteCallbackAuthenticatedProbeV0 env)
  else
    .fail .instructionFallbackNotFound

/-- The Core at a slot, with the programs it calls into. -/
def entry (slot : UInt64) (callee : Callee CoreState ID) :
    Program CoreState CoreEvent ProgramError :=
  fun stackHeight infos data => processInstruction ⟨slot, stackHeight, callee⟩ infos data

theorem processInstruction_stackHeight {slot : UInt64} {callee : Callee CoreState ID}
    {data : List UInt8} (h : data.take 8 ≠ authorizeSpendV0Discriminator.toList) (n m : ℕ)
    (infos : List AccountInfo) :
    entry slot callee n infos data = entry slot callee m infos data := by
  unfold entry processInstruction
  simp only [if_neg h]
  rfl

private theorem handleAuthorizeSpendV0_nested {env : Env config}
    (hn : env.stackHeight ≠ transactionLevelStackHeight) (a : AuthorizeSpendV0)
    (args : AuthorizeSpendV0Args) (w : Core.World) :
    ∃ err, (handleAuthorizeSpendV0 env a args).run w = (.error err, w) := by
  unfold handleAuthorizeSpendV0
  rw [Exec.run_bind_of_ok (Exec.run_get w)]
  cases hload : loadAuthorize w.ledger a with
  | error err =>
    refine ⟨err, ?_⟩
    exact Exec.run_bind_of_error (Exec.run_ofExcept (.error err) w)
  | ok d =>
    have hcheck : checkIntent env a args = .error (.core .directInvocationRequired) := by
      unfold checkIntent
      rw [require_of_not hn]
      rfl
    refine ⟨.core .directInvocationRequired, ?_⟩
    rw [Exec.run_bind_of_ok (Exec.run_ofExcept (.ok d) w), hcheck]
    exact Exec.run_bind_of_error (Exec.run_ofExcept _ w)

omit [Crypto] in
private theorem runHandler_fails {Args Accounts : Type} {args : Option Args} {accounts : Option Accounts}
    {loaders : List Loader} {infos : List AccountInfo} {handler : Accounts → Args → Handler Unit}
    {w : Core.World} (h : ∀ a x, ∃ err, (handler a x).run w = (.error err, w)) :
    ∃ err, (runHandler args accounts loaders infos handler).run w = (.error err, w) := by
  unfold runHandler
  cases okOr args ProgramError.instructionDidNotDeserialize with
  | error err => exact ⟨err, Exec.run_bind_of_error (Exec.run_ofExcept (.error err) w)⟩
  | ok args =>
    rw [Exec.run_bind_of_ok (Exec.run_ofExcept (.ok args) w), Exec.run_bind_of_ok (Exec.run_get w)]
    cases okOr accounts (accountsError w.ledger loaders infos) with
    | error err => exact ⟨err, Exec.run_bind_of_error (Exec.run_ofExcept (.error err) w)⟩
    | ok accounts =>
      rw [Exec.run_bind_of_ok (Exec.run_ofExcept (.ok accounts) w)]
      obtain ⟨err, herr⟩ := h accounts args
      exact ⟨.handler err, Exec.mapError_run_of_error herr⟩

/-- So does the instruction, whatever its accounts and the rest of its data. -/
theorem authorizeSpendV0_nested {slot : UInt64} {callee : Callee CoreState ID} {data : List UInt8}
    (h : data.take 8 = authorizeSpendV0Discriminator.toList) {n : ℕ}
    (hn : n ≠ transactionLevelStackHeight) (infos : List AccountInfo) (w : Core.World) :
    ∃ err, (entry slot callee n infos data).run w = (.error err, w) := by
  unfold entry processInstruction
  rw [h, if_neg (by decide), if_neg (by decide), if_pos rfl]
  exact runHandler_fails fun a args => handleAuthorizeSpendV0_nested hn a args w

end Dispatch

end ProgrammableSolana.Routed
