import ProgrammableSolana.Lib.Exec
import ProgrammableSolana.Lib.Checked
import ProgrammableSolana.Solana.Ledger

/-! The classic SPL Token program: its instructions as ledger transformations, and what one
instruction can do to one account. A signer list holds the authorities an instruction carries,
a multisig counting as an authority once enough of its members signed. -/
namespace ProgrammableSolana.Solana

open ProgrammableSolana.Lib

inductive TokenError where
  | insufficientFunds
  | invalidMint
  | mintMismatch
  | ownerMismatch
  | fixedSupply
  | alreadyInUse
  | uninitializedState
  | nativeNotSupported
  | nonNativeHasBalance
  | nonNativeNotSupported
  | invalidState
  | overflow
  | mintCannotFreeze
  | accountFrozen
  | mintDecimalsMismatch
  | invalidAccountData
  | missingRequiredSignature
  deriving DecidableEq, Repr

inductive TokenOp where
  | initializeMint (mint : Pubkey) (decimals : UInt8) (mintAuthority : Pubkey)
      (freezeAuthority : Option Pubkey)
  | initializeAccount (account mint owner : Pubkey) (nativeBalance rentExemptReserve : UInt64)
  | transfer (source destination authority : Pubkey) (amount : UInt64)
  | transferChecked (source mint destination authority : Pubkey) (amount : UInt64)
      (decimals : UInt8)
  | approve (source delegate owner : Pubkey) (amount : UInt64)
  | approveChecked (source mint delegate owner : Pubkey) (amount : UInt64) (decimals : UInt8)
  | revoke (source owner : Pubkey)
  | setAccountOwner (account newOwner authority : Pubkey)
  | setCloseAuthority (account : Pubkey) (newAuthority : Option Pubkey) (authority : Pubkey)
  | setMintAuthority (mint : Pubkey) (newAuthority : Option Pubkey) (authority : Pubkey)
  | setFreezeAuthority (mint : Pubkey) (newAuthority : Option Pubkey) (authority : Pubkey)
  | mintTo (mint account authority : Pubkey) (amount : UInt64)
  | burn (account mint authority : Pubkey) (amount : UInt64)
  | closeAccount (account destination authority : Pubkey)
  | freezeAccount (account mint authority : Pubkey)
  | thawAccount (account mint authority : Pubkey)
  | syncNative (account : Pubkey) (nativeBalance : UInt64)
  deriving DecidableEq

section Semantics

variable {σ : Type} (L : Ledger σ) (signers : List Pubkey)

def loadToken (key : Pubkey) : Except TokenError TokenAccount :=
  okOr (L.token? key) .invalidAccountData

def loadMint (key : Pubkey) : Except TokenError Mint := okOr (L.mint? key) .invalidMint

def validateOwner (expected authority : Pubkey) : Except TokenError Unit := do
  require (authority = expected) .ownerMismatch
  require (authority ∈ signers) .missingRequiredSignature

/-- Takes `amount` from the delegated allowance when the delegate signs; otherwise the owner
has to sign. A fully used allowance clears the delegate. -/
def authorizeDebit (t : TokenAccount) (authority : Pubkey) (amount : UInt64) :
    Except TokenError TokenAccount :=
  if t.delegate = some authority then do
    require (authority ∈ signers) .missingRequiredSignature
    require (amount ≤ t.delegatedAmount) .insufficientFunds
    let remaining := t.delegatedAmount - amount
    return { t with
      delegatedAmount := remaining
      delegate := if remaining = 0 then none else some authority }
  else do
    validateOwner signers t.owner authority
    return t

/-- The mint and the decimals a `Checked` instruction names. -/
def requireChecked (accountMint : Pubkey) (checked : Option (Pubkey × UInt8)) :
    Except TokenError Unit :=
  match checked with
  | none => pure ()
  | some (mint, decimals) => do
    require (accountMint = mint) .mintMismatch
    let m ← loadMint L mint
    require (decimals = m.decimals) .mintDecimalsMismatch

/-- `process_transfer`; `checked` holds the mint and the decimals of `TransferChecked`. -/
def processTransfer (source destination authority : Pubkey) (amount : UInt64)
    (checked : Option (Pubkey × UInt8)) : Except TokenError (Ledger σ) := do
  let src ← loadToken L source
  let dst ← loadToken L destination
  require (src.state ≠ .frozen ∧ dst.state ≠ .frozen) .accountFrozen
  require (amount ≤ src.amount) .insufficientFunds
  require (src.mint = dst.mint) .mintMismatch
  requireChecked L src.mint checked
  let debited ← authorizeDebit signers src authority amount
  if source = destination then return L
  let credited ← okOr (checkedAdd dst.amount amount) .overflow
  return (L.setToken source { debited with amount := src.amount - amount }).setToken destination
    { dst with amount := credited }

def processApprove (source delegate owner : Pubkey) (amount : UInt64)
    (checked : Option (Pubkey × UInt8)) : Except TokenError (Ledger σ) := do
  let src ← loadToken L source
  require (src.state ≠ .frozen) .accountFrozen
  requireChecked L src.mint checked
  validateOwner signers src.owner owner
  return L.setToken source { src with delegate := some delegate, delegatedAmount := amount }

def processInitializeMint (mint : Pubkey) (decimals : UInt8) (mintAuthority : Pubkey)
    (freezeAuthority : Option Pubkey) : Except TokenError (Ledger σ) := do
  require ((L mint).owner = tokenProgram ∧ (L mint).Blank) .alreadyInUse
  return L.setMint mint
    { mintAuthority := some mintAuthority, supply := 0, decimals, isInitialized := true,
      freezeAuthority }

def processInitializeAccount (account mint owner : Pubkey) (nativeBalance rentExemptReserve : UInt64) :
    Except TokenError (Ledger σ) := do
  require ((L account).owner = tokenProgram ∧ (L account).Blank) .alreadyInUse
  let native := mint = nativeMint
  require (native ∨ (L.mint? mint).isSome) .invalidMint
  return L.setToken account
    { mint, owner, amount := if native then nativeBalance else 0, delegate := none,
      state := .initialized, isNative := if native then some rentExemptReserve else none,
      delegatedAmount := 0, closeAuthority := none }

def processRevoke (source owner : Pubkey) : Except TokenError (Ledger σ) := do
  let src ← loadToken L source
  require (src.state ≠ .frozen) .accountFrozen
  validateOwner signers src.owner owner
  return L.setToken source { src with delegate := none, delegatedAmount := 0 }

def processSetAccountOwner (account newOwner authority : Pubkey) : Except TokenError (Ledger σ) := do
  let t ← loadToken L account
  require (t.state ≠ .frozen) .accountFrozen
  validateOwner signers t.owner authority
  return L.setToken account
    { t with
      owner := newOwner, delegate := none, delegatedAmount := 0,
      closeAuthority := if t.isNative.isSome then none else t.closeAuthority }

def processSetCloseAuthority (account : Pubkey) (newAuthority : Option Pubkey) (authority : Pubkey) :
    Except TokenError (Ledger σ) := do
  let t ← loadToken L account
  require (t.state ≠ .frozen) .accountFrozen
  validateOwner signers (t.closeAuthority.getD t.owner) authority
  return L.setToken account { t with closeAuthority := newAuthority }

def processSetMintAuthority (mint : Pubkey) (newAuthority : Option Pubkey) (authority : Pubkey) :
    Except TokenError (Ledger σ) := do
  let m ← loadMint L mint
  let current ← okOr m.mintAuthority .fixedSupply
  validateOwner signers current authority
  return L.setMint mint { m with mintAuthority := newAuthority }

def processSetFreezeAuthority (mint : Pubkey) (newAuthority : Option Pubkey) (authority : Pubkey) :
    Except TokenError (Ledger σ) := do
  let m ← loadMint L mint
  let current ← okOr m.freezeAuthority .mintCannotFreeze
  validateOwner signers current authority
  return L.setMint mint { m with freezeAuthority := newAuthority }

def processMintTo (mint account authority : Pubkey) (amount : UInt64) :
    Except TokenError (Ledger σ) := do
  let t ← loadToken L account
  require (t.state ≠ .frozen) .accountFrozen
  require (t.isNative = none) .nativeNotSupported
  require (t.mint = mint) .mintMismatch
  let m ← loadMint L mint
  let current ← okOr m.mintAuthority .fixedSupply
  validateOwner signers current authority
  let credited ← okOr (checkedAdd t.amount amount) .overflow
  let supply ← okOr (checkedAdd m.supply amount) .overflow
  return (L.setToken account { t with amount := credited }).setMint mint { m with supply }

def processBurn (account mint authority : Pubkey) (amount : UInt64) :
    Except TokenError (Ledger σ) := do
  let t ← loadToken L account
  require (t.state ≠ .frozen) .accountFrozen
  require (t.isNative = none) .nativeNotSupported
  require (amount ≤ t.amount) .insufficientFunds
  require (t.mint = mint) .mintMismatch
  let m ← loadMint L mint
  let debited ← authorizeDebit signers t authority amount
  let supply ← okOr (checkedSub m.supply amount) .overflow
  return (L.setToken account { debited with amount := t.amount - amount }).setMint mint
    { m with supply }

/-- Closing hands the address back to the System program. -/
def processCloseAccount (account destination authority : Pubkey) : Except TokenError (Ledger σ) := do
  require (account ≠ destination) .invalidAccountData
  let t ← loadToken L account
  require (t.isNative.isSome ∨ t.amount = 0) .nonNativeHasBalance
  validateOwner signers (t.closeAuthority.getD t.owner) authority
  return L.assign account systemProgram (.raw [])

/-- `process_toggle_freeze_account`. -/
def processToggleFreezeAccount (account mint authority : Pubkey) (freeze : Bool) :
    Except TokenError (Ledger σ) := do
  let t ← loadToken L account
  require (¬ (freeze = true ↔ t.state = .frozen)) .invalidState
  require (t.isNative = none) .nativeNotSupported
  require (t.mint = mint) .mintMismatch
  let m ← loadMint L mint
  let current ← okOr m.freezeAuthority .mintCannotFreeze
  validateOwner signers current authority
  return L.setToken account { t with state := if freeze then .frozen else .initialized }

/-- `process_sync_native`; `nativeBalance` is what the lamports beyond the reserve come to. -/
def processSyncNative (account : Pubkey) (nativeBalance : UInt64) : Except TokenError (Ledger σ) := do
  let t ← loadToken L account
  require t.isNative.isSome .nonNativeNotSupported
  require (t.amount ≤ nativeBalance) .invalidState
  return L.setToken account { t with amount := nativeBalance }

/-- One instruction of the Token program. -/
def TokenOp.apply (op : TokenOp) : Except TokenError (Ledger σ) :=
  match op with
  | .initializeMint mint decimals mintAuthority freezeAuthority =>
    processInitializeMint L mint decimals mintAuthority freezeAuthority
  | .initializeAccount account mint owner nativeBalance rentExemptReserve =>
    processInitializeAccount L account mint owner nativeBalance rentExemptReserve
  | .transfer source destination authority amount =>
    processTransfer L signers source destination authority amount none
  | .transferChecked source mint destination authority amount decimals =>
    processTransfer L signers source destination authority amount (some (mint, decimals))
  | .approve source delegate owner amount => processApprove L signers source delegate owner amount none
  | .approveChecked source mint delegate owner amount decimals =>
    processApprove L signers source delegate owner amount (some (mint, decimals))
  | .revoke source owner => processRevoke L signers source owner
  | .setAccountOwner account newOwner authority =>
    processSetAccountOwner L signers account newOwner authority
  | .setCloseAuthority account newAuthority authority =>
    processSetCloseAuthority L signers account newAuthority authority
  | .setMintAuthority mint newAuthority authority =>
    processSetMintAuthority L signers mint newAuthority authority
  | .setFreezeAuthority mint newAuthority authority =>
    processSetFreezeAuthority L signers mint newAuthority authority
  | .mintTo mint account authority amount => processMintTo L signers mint account authority amount
  | .burn account mint authority amount => processBurn L signers account mint authority amount
  | .closeAccount account destination authority =>
    processCloseAccount L signers account destination authority
  | .freezeAccount account mint authority =>
    processToggleFreezeAccount L signers account mint authority true
  | .thawAccount account mint authority =>
    processToggleFreezeAccount L signers account mint authority false
  | .syncNative account nativeBalance => processSyncNative L account nativeBalance

end Semantics

namespace TokenOp

/-- The accounts an instruction needs write access to. -/
def writes : TokenOp → List Pubkey
  | initializeMint mint _ _ _ => [mint]
  | initializeAccount account _ _ _ _ => [account]
  | transfer source destination _ _ => [source, destination]
  | transferChecked source _ destination _ _ _ => [source, destination]
  | approve source _ _ _ => [source]
  | approveChecked source _ _ _ _ _ => [source]
  | revoke source _ => [source]
  | setAccountOwner account _ _ => [account]
  | setCloseAuthority account _ _ => [account]
  | setMintAuthority mint _ _ => [mint]
  | setFreezeAuthority mint _ _ => [mint]
  | mintTo mint account _ _ => [mint, account]
  | burn account mint _ _ => [account, mint]
  | closeAccount account destination _ => [account, destination]
  | freezeAccount account _ _ => [account]
  | thawAccount account _ _ => [account]
  | syncNative account _ => [account]

/-- `op` lets `delegate` spend `amount` from `key`, by the authority of `owner`. -/
def Approves (op : TokenOp) (key delegate owner : Pubkey) (amount : UInt64) : Prop :=
  op = .approve key delegate owner amount ∨
    ∃ mint decimals, op = .approveChecked key mint delegate owner amount decimals

end TokenOp

end ProgrammableSolana.Solana
