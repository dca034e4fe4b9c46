import ProgrammableSolana.Solana.Runtime

/-! The ways an instruction of a Core fails. The three Cores share one list of error names;
each uses the ones its own source declares. -/
namespace ProgrammableSolana.Core

inductive CoreError where
  | unexpectedRemainingAccounts
  | duplicateAccountRole
  | unsupportedAssetIndex
  | zeroAmount
  | arithmeticOverflow
  | integerConversionFailed
  | identicalMints
  | nativeMintUnsupported
  | mintNotInitialized
  | mintFreezeAuthorityUnsupported
  | tokenAccountNotInitialized
  | frozenTokenAccount
  | nativeTokenAccountUnsupported
  | invalidTokenMint
  | invalidTokenAuthority
  | tokenDelegateUnsupported
  | tokenCloseAuthorityUnsupported
  | invalidDelegatedAmount
  | invalidMarket
  | invalidDomainAdmission
  | invalidDomain
  | invalidDomainVault
  | invalidFeeLedger
  | invalidFeeVault
  | invalidEngineProgram
  | invalidEngineState
  | invalidEngineRevision
  | invalidFeePolicy
  | invalidEngineStateOwner
  | engineProgramNotExecutable
  | engineStateExecutable
  | coreCannotBeEngine
  | unexpectedWritablePrivilege
  | vaultBelowAccountedBalance
  | insufficientAccountedLiquidity
  | unexpectedSourceDebit
  | unexpectedDestinationCredit
  | unexpectedVaultCredit
  | unexpectedVaultDebit
  | unexpectedFeeVaultCredit
  | requestExpired
  | outputBelowUserMinimum
  | protocolFeeAboveUserMaximum
  | totalDebitAboveUserMaximum
  | directInvocationRequired
  | missingEngineReceipt
  | invalidEngineReceiptSetter
  | invalidEngineReceipt
  | engineReceiptPlanMismatch
  | tooManyOpaqueAccounts
  | opaquePayloadTooLarge
  | opaqueSignerForbidden
  | opaqueFixedRoleAlias
  | opaqueCoreOwnedAccount
  | opaqueExecutableWritable
  | opaqueProtectedTokenAccountWritable
  | opaqueNormalizedPrivilegeUnavailable
  | capabilityHashExpectationMismatch
  | invalidWireEncoding
  | unexpectedSignerPrivilege
  | insufficientUserSourceBalance
  | engineReceiptRequestMismatch
  | unsupportedTimingMode
  | intentCoreProgramMismatch
  | intentUserAuthorityMismatch
  | intentUserInputMismatch
  | intentInputMintMismatch
  | intentTokenProgramMismatch
  | existingTokenDelegate
  | delegatedAmountMismatch
  | invalidSpendAuthority
  | spendDelegateNotCleared
  | sourceBalanceChangedDuringAuthorization
  | invalidCallbackAuthority
  | engineReceiptPhaseMismatch
  | engineReceiptIntentMismatch
  | engineReceiptExecutionMismatch
  | prepareSequenceChanged
  | transitionSequenceMismatch
  | commitSequenceMismatch
  | commitOutputMismatch
  deriving DecidableEq, Repr

/-- Errors the framework raises while it loads and constrains accounts. -/
inductive AnchorError where
  | accountNotInitialized
  | accountOwnedByWrongProgram
  | accountDiscriminatorNotFound
  | accountDiscriminatorMismatch
  | accountDidNotDeserialize
  | accountNotSigner
  | constraintMut
  | constraintSeeds
  | constraintAddress
  | constraintOwner
  | constraintTokenMint
  | constraintTokenOwner
  | invalidProgramId
  | invalidProgramExecutable
  | accountAlreadyInUse
  deriving DecidableEq, Repr

/-- `panic` is an abort of the program, such as an index outside a buffer. -/
inductive Error where
  | core (e : CoreError)
  | anchor (e : AnchorError)
  | runtime (e : Solana.RuntimeError)
  | panic
  deriving DecidableEq, Repr

instance : Coe CoreError Error := ⟨.core⟩

instance : Coe AnchorError Error := ⟨.anchor⟩

abbrev Result : Type → Type := Except Error

end ProgrammableSolana.Core
