import ProgrammableSolana.Core.Math
import ProgrammableSolana.Core.Normalization
import ProgrammableSolana.Core.Settlement

/-! The error of a failed privilege lookup: the checks around the lookup do not raise it. -/
namespace ProgrammableSolana.Core

open ProgrammableSolana.Lib ProgrammableSolana.Solana

/-- The error of a lookup that finds no sufficient position. -/
def lookupError : Error := .core .opaqueNormalizedPrivilegeUnavailable

/-- The computation does not end with the error of a failed lookup. -/
def Unraised {α : Type} (x : Handler α) (w : World) : Prop :=
  x.Ends w (fun err _ => err ≠ lookupError) fun _ _ => True

section Loads

variable {L : Ledger} {programId key : Pubkey} {err : CoreError}

private theorem requireOwner_anchor {owner : Pubkey} :
    requireOwner L key owner ≠ .error (.core err) := by
  intro h
  simp only [requireOwner, except_bind_error_iff, require_error_iff, reduceCtorEq, and_false,
    exists_false, or_self] at h

private theorem loadState_anchor : loadState L programId key ≠ .error (.core err) := by
  intro h
  simp only [loadState, except_bind_error_iff, requireOwner_anchor, false_or] at h
  obtain ⟨-, -, h⟩ := h
  split at h
  · cases h
  · split at h
    · cases h
    · cases h
  · cases h

private theorem loadMarket_anchor : loadMarket L programId key ≠ .error (.core err) := by
  intro h
  simp only [loadMarket, except_bind_error_iff, loadState_anchor, false_or] at h
  obtain ⟨s, -, h⟩ := h
  cases s <;> cases h

private theorem loadDomain_anchor : loadDomain L programId key ≠ .error (.core err) := by
  intro h
  simp only [loadDomain, except_bind_error_iff, loadState_anchor, false_or] at h
  obtain ⟨s, -, h⟩ := h
  cases s <;> cases h

private theorem loadFeeLedger_anchor : loadFeeLedger L programId key ≠ .error (.core err) := by
  intro h
  simp only [loadFeeLedger, except_bind_error_iff, loadState_anchor, false_or] at h
  obtain ⟨s, -, h⟩ := h
  cases s <;> cases h

private theorem loadMintAccount_anchor : loadMintAccount L key ≠ .error (.core err) := by
  intro h
  simp only [loadMintAccount, except_bind_error_iff, requireOwner_anchor, false_or] at h
  obtain ⟨-, -, h⟩ := h
  split at h
  · cases h
  · cases h

private theorem loadTokenAccount_anchor : loadTokenAccount L key ≠ .error (.core err) := by
  intro h
  simp only [loadTokenAccount, except_bind_error_iff, requireOwner_anchor, false_or] at h
  obtain ⟨-, -, h⟩ := h
  split at h
  · cases h
  · cases h

theorem loadEnvelope_anchor [Crypto] {cfg : Config} {e : Envelope} :
    loadEnvelope cfg L e ≠ .error (.core err) := by
  intro h
  simp only [loadEnvelope, loadTokenProgram, except_bind_error_iff, require_error_iff,
    loadMarket_anchor, loadDomain_anchor, loadFeeLedger_anchor, loadMintAccount_anchor,
    loadTokenAccount_anchor, except_pure_ne_error, reduceCtorEq, and_false, exists_false,
    or_self] at h

end Loads

section Checks

variable [Crypto] {cfg : Config} {L : Ledger} {e : Envelope} {d : EnvelopeData}
  {sourceAuthority : Option Pubkey}

theorem constrainEnvelope_unraised :
    constrainEnvelope cfg L e d sourceAuthority ≠ .error lookupError := by
  intro h
  cases sourceAuthority <;>
    simp only [constrainEnvelope, constraintSeeds, constraintMut, constraintAddress,
      constraintTokenMint, constraintTokenAuthority, constrainSourceAuthority, lookupError,
      except_bind_error_iff, require_error_iff, reduceCtorEq, Error.core.injEq, and_false, or_self,
      exists_false] at h

theorem bindEnvelope_unraised : bindEnvelope cfg L e d ≠ .error lookupError := by
  intro h
  simp only [bindEnvelope, validateMarketDomain, validateFeeLedger, canonicalDomainVault,
    canonicalFeeVault, lookupError, except_bind_error_iff, require_error_iff, okOr_error_iff,
    reduceCtorEq, Error.core.injEq, and_false, or_self, exists_false] at h

omit [Crypto] in
theorem profileEnvelope_unraised : profileEnvelope e d sourceAuthority ≠ .error lookupError := by
  intro h
  cases sourceAuthority <;>
    simp only [profileEnvelope, profileSource, validateClassicMint, validateCreditDestination,
      validateProtectedTokenAccount, validateCommonTokenAccount, requireRawCoversAccounted,
      lookupError, except_bind_error_iff, require_error_iff, reduceCtorEq, Error.core.injEq,
      and_false, or_self, exists_false] at h

omit [Crypto] in
theorem ensureDistinctRoles_unraised {keys : List Pubkey} :
    ensureDistinctRoles keys ≠ .error lookupError := by
  induction keys with
  | nil =>
    intro h
    cases h
  | cons key keys ih =>
    intro h
    unfold ensureDistinctRoles at h
    simp only [except_bind_error_iff, require_error_iff] at h
    rcases h with ⟨-, h⟩ | ⟨-, -, h⟩
    · cases h
    · exact ih h

omit [Crypto] in
private theorem reloadTokens_unraised : reloadTokens L e d ≠ .error lookupError := by
  intro h
  unfold lookupError at h
  simp only [reloadTokens, except_bind_error_iff, loadTokenAccount_anchor, except_pure_ne_error,
    and_false, exists_false, or_self] at h

omit [Crypto] in
private theorem checkDeltas_unraised {before after : EnvelopeData} {t : SettleTerms} :
    checkDeltas before after t ≠ .error lookupError := by
  intro h
  simp only [checkDeltas, exactDebit, exactCredit, lookupError, except_bind_error_iff,
    require_error_iff, okOr_error_iff, reduceCtorEq, Error.core.injEq, and_false, or_self,
    exists_false] at h

theorem signerOfSeeds_unraised {seeds : List (List UInt8)} :
    signerOfSeeds cfg seeds ≠ .error lookupError := by
  intro h
  have herr := (okOr_error_iff.mp h).2
  cases herr

theorem settle_unraised {caller : List AccountInfo} {authority : Pubkey} {signers : List Pubkey}
    {t : SettleTerms} {w : World} : Unraised (settle cfg caller e d authority signers t) w := by
  have hruntime : ∀ r : RuntimeError, Error.runtime r ≠ lookupError := by
    intro r h
    cases h
  unfold Unraised settle
  apply Exec.ends_mapError_bind_of (fun r _ _ => hruntime r)
  intro _ w₁ _
  apply Exec.ends_mapError_bind_of (fun r _ _ => hruntime r)
  intro _ w₂ _
  apply Exec.ends_ofExcept_bind_of
  · intro err herr heq
    exact signerOfSeeds_unraised (heq ▸ herr)
  intro domainSigner _
  apply Exec.ends_mapError_bind_of (fun r _ _ => hruntime r)
  intro _ w₃ _
  apply Exec.ends_get_bind
  apply Exec.ends_ofExcept_bind_of
  · intro err herr heq
    exact reloadTokens_unraised (heq ▸ herr)
  intro after _
  apply Exec.ends_ofExcept_bind_of
  · intro err herr heq
    exact checkDeltas_unraised (heq ▸ herr)
  intro _ _
  exact Exec.ends_of_ok (Exec.run_pure after w₃) trivial

end Checks

end ProgrammableSolana.Core
