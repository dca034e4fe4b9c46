import ProgrammableSolana.Core.Envelope
import ProgrammableSolana.Wire.Routed

/-! The routed Core: its constants and `authorize_spend`, by which a user lets the Core spend one
exact amount from a token account for one intent. -/
namespace ProgrammableSolana.Routed

open ProgrammableSolana.Lib ProgrammableSolana.Solana ProgrammableSolana.Core

/-- `Bwhiw9S9ZdHkEhFF2Ps89HMxa5dHX1xSbdsGZ8W3qR2b`. -/
def ID : Pubkey := Wire.Routed.coreProgramId

def config : Config where
  ID := ID
  marketSeedV0 := ascii "routed-market-v0"
  domainSeedV0 := ascii "routed-domain-v0"
  vaultSeedV0 := ascii "routed-vault-v0"
  feeLedgerSeedV0 := ascii "routed-fee-ledger-v0"
  feeVaultSeedV0 := ascii "routed-fee-vault-v0"
  rolesIncludeId := true
  ID_ne_token := by decide
  ID_ne_system := by decide

def spendAuthoritySeedV0 : List UInt8 := ascii "spend:v0"

def callbackAuthoritySeedV0 : List UInt8 := ascii "engine-callback:v0"

def noCommitDigestV0 : Hash := Bytes.zero 32

structure AuthorizeSpendV0Args where
  wireIntent : Bytes Wire.Routed.intentBindingLen

structure AuthorizeSpendV0 where
  user : AccountInfo
  source : AccountInfo
  mint : AccountInfo
  spendAuthority : AccountInfo
  tokenProgram : AccountInfo
  remainingAccounts : List AccountInfo

/-- The accounts in the order the instruction lists them. -/
def AuthorizeSpendV0.infos (a : AuthorizeSpendV0) : List AccountInfo :=
  [a.user, a.source, a.mint, a.spendAuthority, a.tokenProgram] ++ a.remainingAccounts

structure AuthorizeData where
  source : TokenAccount
  mint : Mint

/-- An intent with the total it debits and its digest. -/
structure CheckedIntent where
  binding : Wire.Routed.IntentBinding
  exactTotalDebit : UInt64
  intentDigest : Hash

def validateUserSourceBeforeAuthorization (account : TokenAccount)
    (expectedMint expectedAuthority : Pubkey) : Result Unit := do
  validateCommonTokenAccount account expectedMint
  require (account.owner = expectedAuthority) (.core .invalidTokenAuthority)
  require (account.delegate = none) (.core .existingTokenDelegate)
  require (account.delegatedAmount = 0) (.core .invalidDelegatedAmount)
  require (account.closeAuthority = none) (.core .tokenCloseAuthorityUnsupported)

def validateDelegatedSpendSource (account : TokenAccount)
    (expectedMint expectedSpendAuthority : Pubkey) (exactTotalDebit : UInt64) : Result Unit := do
  validateCommonTokenAccount account expectedMint
  require (account.delegate = some expectedSpendAuthority) (.core .invalidSpendAuthority)
  require (account.delegatedAmount = exactTotalDebit) (.core .delegatedAmountMismatch)
  require (account.closeAuthority = none) (.core .tokenCloseAuthorityUnsupported)

section

variable [Crypto]

/-- The address that may spend from `userInput` for the intent, with its bump. -/
def canonicalSpendAuthority (userInput : Pubkey) (intentDigest : Hash) : Result (Pubkey × UInt8) :=
  okOr (findProgramAddress [spendAuthoritySeedV0, userInput.toList, intentDigest.toList] ID) .panic

def loadAuthorize (L : Ledger) (a : AuthorizeSpendV0) : Result AuthorizeData := do
  loadSigner a.user
  let source ← loadTokenAccount L a.source.key
  let mint ← loadMintAccount L a.mint.key
  loadTokenProgram L a.tokenProgram
  constraintMut a.source
  constraintTokenMint source a.mint.key
  constraintTokenAuthority source a.user.key
  return ⟨source, mint⟩

/-- The checks on the intent itself. -/
def checkIntent (env : Env config) (a : AuthorizeSpendV0) (args : AuthorizeSpendV0Args) :
    Result CheckedIntent := do
  require (env.stackHeight = transactionLevelStackHeight) (.core .directInvocationRequired)
  ensureNoRemainingAccounts a.remainingAccounts
  let binding ← liftWire (.core .invalidWireEncoding)
    (Wire.Routed.decodeIntentBinding args.wireIntent.toList)
  require (binding.coreProgram = ID) (.core .intentCoreProgramMismatch)
  require (0 < binding.amountIn) (.core .zeroAmount)
  require (binding.protocolFee ≤ binding.maxProtocolFee) (.core .protocolFeeAboveUserMaximum)
  let exactTotalDebit ← okOr (checkedAdd binding.amountIn binding.protocolFee)
    (.core .arithmeticOverflow)
  require (exactTotalDebit ≤ binding.maxTotalInputDebit) (.core .totalDebitAboveUserMaximum)
  require (env.slot ≤ binding.expiresAtSlot) (.core .requestExpired)
  let intentDigest ← liftWire (.core .invalidWireEncoding)
    (Wire.Routed.computeIntentDigest binding)
  return { binding, exactTotalDebit, intentDigest }

/-- The checks on the accounts; the result is the spend authority. -/
def validateAuthorize (L : Ledger) (a : AuthorizeSpendV0) (d : AuthorizeData) (i : CheckedIntent) :
    Result Pubkey := do
  ensureDistinctRoles [a.user.key, a.source.key, a.mint.key, a.spendAuthority.key,
    a.tokenProgram.key, ID]
  require (i.binding.userAuthority = a.user.key) (.core .intentUserAuthorityMismatch)
  require (i.binding.userInput = a.source.key) (.core .intentUserInputMismatch)
  require (i.binding.mintIn = a.mint.key) (.core .intentInputMintMismatch)
  require (i.binding.tokenProgram = a.tokenProgram.key) (.core .intentTokenProgramMismatch)
  require (a.mint.isWritable = false ∧ a.spendAuthority.isWritable = false ∧
    a.tokenProgram.isWritable = false) (.core .unexpectedWritablePrivilege)
  require (a.source.isSigner = false ∧ a.mint.isSigner = false ∧
    a.spendAuthority.isSigner = false ∧ a.tokenProgram.isSigner = false)
    (.core .unexpectedSignerPrivilege)
  require ((L a.spendAuthority.key).executable = false) (.core .invalidSpendAuthority)
  let (expectedSpendAuthority, _) ← canonicalSpendAuthority a.source.key i.intentDigest
  require (a.spendAuthority.key = expectedSpendAuthority) (.core .invalidSpendAuthority)
  validateClassicMint a.mint.key d.mint
  validateUserSourceBeforeAuthorization d.source a.mint.key a.user.key
  require (i.exactTotalDebit ≤ d.source.amount) (.core .insufficientUserSourceBalance)
  return expectedSpendAuthority

/-- The source as it has to be after the approval. -/
def checkAuthorized (L : Ledger) (a : AuthorizeSpendV0) (d : AuthorizeData) (i : CheckedIntent)
    (spendAuthority : Pubkey) : Result Unit := do
  let source ← loadTokenAccount L a.source.key
  require (source.amount = d.source.amount) (.core .sourceBalanceChangedDuringAuthorization)
  require (source.delegate = some spendAuthority) (.core .invalidSpendAuthority)
  require (source.delegatedAmount = i.exactTotalDebit) (.core .delegatedAmountMismatch)

def handleAuthorizeSpendV0 (env : Env config) (a : AuthorizeSpendV0) (args : AuthorizeSpendV0Args) :
    Handler Unit := do
  let w ← .get
  let d ← .ofExcept (loadAuthorize w.ledger a)
  let i ← .ofExcept (checkIntent env a args)
  let spendAuthority ← .ofExcept (validateAuthorize w.ledger a d i)
  (tokenInvoke a.infos [] (.approveChecked a.source.key a.mint.key a.spendAuthority.key a.user.key
    i.exactTotalDebit d.mint.decimals) (some a.user.key)).mapError .runtime
  let w ← .get
  .ofExcept (checkAuthorized w.ledger a d i spendAuthority)
  emit (.spendAuthorized
    { userAuthority := a.user.key, userInput := a.source.key, mintIn := a.mint.key, spendAuthority,
      intentDigest := i.intentDigest, timingMode := i.binding.timingMode,
      authorizationNonce := i.binding.authorizationNonce, exactTotalDebit := i.exactTotalDebit,
      expiresAtSlot := i.binding.expiresAtSlot })

end

end ProgrammableSolana.Routed
