import ProgrammableSolana.Core.Lookup
import ProgrammableSolana.Generated.Progress
import ProgrammableSolana.Generated.Runs
import ProgrammableSolana.Routed.Progress

/-! The opaque capabilities of both Cores that hand accounts on: they depend on the union of the
privileges alone, and the lookup for the engine call always finds them. -/
namespace ProgrammableSolana.Cores

open ProgrammableSolana.Lib ProgrammableSolana.Solana ProgrammableSolana.Core
open ProgrammableSolana.Wire (CapabilityDescriptor maxOpaqueAccounts)
open ProgrammableSolana.Generated (ExecuteEngineGeneratedProbeV0 ExecuteEngineGeneratedProbeV0Args)
open ProgrammableSolana.Routed (ExecuteCallbackAuthenticatedProbeV0
  ExecuteCallbackAuthenticatedProbeV0Args CapabilityMode)

/-- Which lists are accepted, what they are normalized to, and that lists with the same unions are
not told apart. -/
theorem capabilities_normalized [Crypto] (cfg : Config) (fixedEnvelopeKeys : List Pubkey) :
    (∀ accounts, (∃ ds, validateOpaqueCapabilities cfg accounts fixedEnvelopeKeys = .ok ds) ↔
      accounts.length ≤ 8 ∧
        ∀ account ∈ accounts, Admissible cfg accounts fixedEnvelopeKeys account) ∧
    (∀ accounts ds, validateOpaqueCapabilities cfg accounts fixedEnvelopeKeys = .ok ds →
      List.Forall₂ (Normalized accounts) accounts ds) ∧
    ∀ accounts accounts', SameUnions accounts accounts' →
      ((∃ ds, validateOpaqueCapabilities cfg accounts fixedEnvelopeKeys = .ok ds ∧
          validateOpaqueCapabilities cfg accounts' fixedEnvelopeKeys = .ok ds) ∨
        ∃ err, validateOpaqueCapabilities cfg accounts fixedEnvelopeKeys = .error err ∧
          validateOpaqueCapabilities cfg accounts' fixedEnvelopeKeys = .error err) ∧
      ∀ ds ds', validateOpaqueCapabilities cfg accounts fixedEnvelopeKeys = .ok ds →
        validateOpaqueCapabilities cfg accounts' fixedEnvelopeKeys = .ok ds' → ds = ds' ∧
          (∀ (L : Ledger) (engineProgram : Pubkey) (engineState : AccountInfo)
            (mode : CapabilityMode), Wire.Routed.computeCapabilityHash engineProgram
                (Routed.capabilityDescriptors L engineState ds mode) =
              Wire.Routed.computeCapabilityHash engineProgram
                (Routed.capabilityDescriptors L engineState ds' mode)) ∧
          ∀ (L : Ledger) (a : ExecuteEngineGeneratedProbeV0),
            Wire.Generated.computeCapabilityHash a.engineProgram.key
                (Generated.prefixDescriptors L a ++ ds) =
              Wire.Generated.computeCapabilityHash a.engineProgram.key
                (Generated.prefixDescriptors L a ++ ds') := by
  refine ⟨fun accounts => validateOpaqueCapabilities_accepts_iff, fun accounts ds h => ?_,
    fun accounts accounts' hunions => ?_⟩
  · exact (validateOpaqueCapabilities_ok_iff.mp h).2.2
  · have hsame : validateOpaqueCapabilities cfg accounts fixedEnvelopeKeys =
        validateOpaqueCapabilities cfg accounts' fixedEnvelopeKeys :=
      validateOpaqueCapabilities_congr hunions
    constructor
    · rw [hsame]
      cases validateOpaqueCapabilities cfg accounts' fixedEnvelopeKeys with
      | ok ds => exact .inl ⟨ds, rfl, rfl⟩
      | error err => exact .inr ⟨err, rfl, rfl⟩
    · intro ds ds' hds hds'
      have heq : ds = ds' := Except.ok.inj (hds.symm.trans (hsame.trans hds'))
      subst heq
      exact ⟨rfl, fun _ _ _ _ => rfl, fun _ _ => rfl⟩

section Sample

open Core.Sample

/-- Two positions of one account, writable at the second alone. -/
def spread : List AccountView :=
  [⟨⟨user, false, false⟩, engineProgram, false⟩, ⟨⟨user, false, true⟩, engineProgram, false⟩]

/-- The same accounts, writable at the first alone. -/
def respread : List AccountView :=
  [⟨⟨user, false, true⟩, engineProgram, false⟩, ⟨⟨user, false, false⟩, engineProgram, false⟩]

def spreadDescriptor : CapabilityDescriptor := ⟨user, engineProgram, true, false, false⟩

private theorem spread_accepted : validateOpaqueCapabilities Routed.config spread [mintA] =
    .ok [spreadDescriptor, spreadDescriptor] := by
  decide +kernel

private theorem spread_unions : SameUnions spread respread := by
  constructor
  · exact .cons ⟨rfl, rfl, rfl⟩ (.cons ⟨rfl, rfl, rfl⟩ .nil)
  · intro key
    simp [SignerAt, spread, respread]
  · intro key
    simp [WritableAt, spread, respread]

theorem capabilities_normalized_sample :
    List.Forall₂ (Normalized spread) spread [spreadDescriptor, spreadDescriptor] ∧
      ∃ ds, validateOpaqueCapabilities Routed.config respread [mintA] = .ok ds := by
  obtain ⟨-, hnormalized, hsame⟩ :=
    @capabilities_normalized Generated.Sample.crypto Routed.config [mintA]
  refine ⟨hnormalized spread _ spread_accepted, ?_⟩
  rcases (hsame spread respread spread_unions).1 with ⟨ds, -, hds⟩ | ⟨err, herr, -⟩
  · exact ⟨ds, hds⟩
  · rw [spread_accepted] at herr
    cases herr

end Sample

section Never

variable [Crypto]

/-- The generated Core never ends with the error of a failed lookup. -/
theorem generated_unraised (env : Env Generated.config) (w : Core.World)
    (a : ExecuteEngineGeneratedProbeV0) (args : ExecuteEngineGeneratedProbeV0Args) :
    Unraised (Generated.handleExecuteEngineGeneratedProbeV0 env a args) w := by
  unfold Unraised Generated.handleExecuteEngineGeneratedProbeV0
  apply Exec.ends_get_bind
  apply Exec.ends_ofExcept_bind_of
  · intro err herr heq
    subst heq
    simp only [Generated.loadExecute, loadSigner, constraintAddress, except_bind_error_iff,
      require_error_iff, constrainEnvelope_unraised, except_pure_ne_error, and_false, exists_false,
      or_false, false_or] at herr
    rcases herr with ⟨-, h⟩ | ⟨-, -, h | ⟨d, -, -, -, -, h⟩⟩
    · cases h
    · exact loadEnvelope_anchor h
    · cases h
  intro d hload
  apply Exec.ends_ofExcept_bind_of
  · intro err herr heq
    subst heq
    simp only [Generated.validateAccounts, validateOpaquePayload, except_bind_error_iff,
      require_error_iff, bindEnvelope_unraised, profileEnvelope_unraised,
      ensureDistinctRoles_unraised, and_false, exists_false, or_false, false_or] at herr
    unfold lookupError at herr
    simp only [Error.core.injEq, reduceCtorEq, and_false, exists_false, or_false] at herr
  intro _ hvalid
  apply Exec.ends_ofExcept_bind_of
  · intro err herr heq
    have hmem := Generated.planExecution_error (Generated.ready_of_ok hload hvalid) herr
    exact absurd (heq ▸ hmem) (by decide)
  intro call hcall
  apply Exec.ends_mapError_bind_of
  · intro r _ _ heq
    cases heq
  intro _ w₁ _
  apply Exec.ends_get_bind
  apply Exec.ends_ofExcept_bind_of
  · intro err herr heq
    have hmem := Generated.acceptReceipt_error herr
    exact absurd (heq ▸ hmem) (by decide)
  intro receipt hreceipt
  obtain ⟨plan, hplan⟩ := Generated.acceptPlan_succeeds (Generated.planExecution_ok hcall)
    (Generated.acceptReceipt_ok hreceipt).2.2.2.2
  apply Exec.ends_ofExcept_bind hplan
  unfold Generated.settleEngineGeneratedProbe
  apply Exec.Ends.bind settle_unraised
  intro after w₂ _
  exact Exec.ends_of_ok (show _ = (Except.ok (), _) from rfl) trivial

section Routed

open ProgrammableSolana.Routed

variable {env : Env Routed.config} {L : Ledger} {a : ExecuteCallbackAuthenticatedProbeV0}
  {d : EnvelopeData} {args : ExecuteCallbackAuthenticatedProbeV0Args} {phase : UInt8}
  {i : AuthenticatedIntent} {w : Core.World}

omit [Crypto] in
private theorem liftWire_unraised {ε α : Type} {rejected : Error} {x : Except (Fault ε) α}
    (h : rejected ≠ lookupError) : liftWire rejected x ≠ .error lookupError := by
  intro hx
  simp only [liftWire, mapError_error_iff] at hx
  obtain ⟨fault, -, hfault⟩ := hx
  cases fault with
  | codec c => exact h hfault
  | outOfBounds => cases hfault

private theorem loadExecute_unraised : Routed.loadExecute L a ≠ .error lookupError := by
  intro h
  simp only [Routed.loadExecute, except_bind_error_iff, constrainEnvelope_unraised,
    except_pure_ne_error, and_false, exists_false, or_false] at h
  exact loadEnvelope_anchor h

private theorem validateAccounts_unraised :
    Routed.validateAccounts env L a d args ≠ .error lookupError := by
  intro h
  simp only [Routed.validateAccounts, validateExecutionEnvelope, validateOpaquePayload,
    except_bind_error_iff, require_error_iff, bindEnvelope_unraised, profileEnvelope_unraised,
    ensureDistinctRoles_unraised, except_pure_ne_error, and_false, exists_false, or_false,
    false_or] at h
  unfold lookupError at h
  simp only [Error.core.injEq, reduceCtorEq, and_false, exists_false, or_false, false_or] at h
  obtain ⟨-, -, h⟩ := h
  unfold primaryPhase at h
  split at h
  · cases h
  · split at h
    · cases h
    · cases h

private theorem prepareExecution_unraised : prepareExecution env L a args ≠ .error lookupError := by
  intro h
  have hload : ∃ d, Routed.loadExecute L a = .ok d := by
    cases hd : Routed.loadExecute L a with
    | ok d => exact ⟨d, rfl⟩
    | error err =>
      simp only [prepareExecution, hd, except_error_bind, Except.error.injEq] at h
      exact absurd (h ▸ hd) loadExecute_unraised
  obtain ⟨d, hload⟩ := hload
  have hvalid : ∃ phase, Routed.validateAccounts env L a d args = .ok phase := by
    cases hp : Routed.validateAccounts env L a d args with
    | ok phase => exact ⟨phase, rfl⟩
    | error err =>
      simp only [prepareExecution, hload, except_ok_bind, hp, except_error_bind,
        Except.error.injEq] at h
      exact absurd (h ▸ hp) validateAccounts_unraised
  obtain ⟨phase, hvalid⟩ := hvalid
  have hmem := authenticateIntent_error (Routed.ready_of_ok hload hvalid)
    (prepareExecution_error hload hvalid h)
  exact absurd hmem (by decide)

/-- The infos of a phase are found on the accounts the intent was authenticated with. -/
theorem phaseInstruction_unraised (hi : IntentOk L a d args phase i)
    (hsame : SameOwnership L w.ledger) {mode : CapabilityMode}
    {request : Wire.Routed.EngineRequest} {callback : AccountInfo} :
    phaseInstruction w.ledger a (phaseDescriptors i.opaqueDescriptors mode) request callback ≠
      .error lookupError := by
  have hsigner : ∀ d ∈ i.opaqueDescriptors, d.isSigner = false := by
    intro d hd
    obtain ⟨_, -, hadmitted⟩ := exists_of_forall₂_mem hi.admitted hd
    exact hadmitted.isSigner
  have hweak : ∀ d' ∈ phaseDescriptors i.opaqueDescriptors mode,
      ∃ d ∈ i.opaqueDescriptors, Weakens d' d := fun d' hd' => phaseDescriptors_weaken hsigner hd'
  obtain ⟨infos, hinfos, -⟩ := normalizedInfos_succeed hi.admitted hweak
  rw [← accountViews_congr hsame] at hinfos
  intro h
  simp only [phaseInstruction, except_bind_error_iff, require_error_iff, hinfos,
    except_pure_ne_error, and_false, exists_false, or_false, reduceCtorEq] at h
  rcases h with ⟨-, h⟩ | ⟨-, -, h⟩
  · cases h
  · exact liftWire_unraised (by decide) h

private theorem invokeEnginePhase_unraised (hi : IntentOk L a d args phase i)
    (hsame : SameOwnership L w.ledger) {mode : CapabilityMode}
    {request : Wire.Routed.EngineRequest} {callback : AccountInfo} {bump : UInt8} :
    Unraised (invokeEnginePhase env a (phaseDescriptors i.opaqueDescriptors mode) request callback
      bump) w := by
  unfold Unraised invokeEnginePhase
  apply Exec.ends_get_bind
  apply Exec.ends_ofExcept_bind_of
  · intro err herr heq
    exact phaseInstruction_unraised hi hsame (heq ▸ herr)
  intro call _
  apply Exec.ends_ofExcept_bind_of
  · intro err herr heq
    exact signerOfSeeds_unraised (heq ▸ herr)
  intro signer _
  apply Exec.ends_mapError_bind_of
  · intro r _ _ heq
    cases heq
  intro _ w₁ _
  apply Exec.ends_get_bind
  apply Exec.ends_ofExcept_of
  · intro err herr heq
    have hmem := readReceipt_error herr
    exact absurd (heq ▸ hmem) (by decide)
  intro _ _
  trivial

private theorem acceptPrimary_unraised {p : PreparedExecution} {receipt : Wire.Routed.EngineReceipt} :
    acceptPrimary args p receipt ≠ .error lookupError := by
  intro h
  have hdigest : ∀ {x : Except (Fault Wire.CodecError) Hash},
      liftWire (.core .invalidEngineReceipt) x ≠ .error lookupError :=
    liftWire_unraised (by decide)
  simp only [acceptPrimary, validateReceiptBinding, validateAmountOut, acceptSettlement,
    except_bind_error_iff, require_error_iff, okOr_error_iff, except_pure_ne_error, hdigest,
    and_false, exists_false, or_false, false_or] at h
  unfold lookupError at h
  simp only [Error.core.injEq, reduceCtorEq, and_false, exists_false, or_false, false_or] at h
  obtain ⟨-, -, h⟩ := h
  unfold validatePrimarySequence at h
  split at h
  · simp only [require_error_iff, Error.core.injEq, reduceCtorEq, and_false] at h
  · simp only [except_bind_error_iff, require_error_iff, okOr_error_iff, Error.core.injEq,
      reduceCtorEq, and_false, exists_false, or_self] at h

private theorem phaseRequest_unraised {callPhase : UInt8} {mode : CapabilityMode} {context : Hash}
    {preSequence : UInt64} :
    phaseRequest L a d args i callPhase mode context preSequence ≠ .error lookupError := by
  intro h
  have hwire : ∀ {ε α : Type} {x : Except (Fault ε) α},
      liftWire (.core .invalidWireEncoding) x ≠ .error lookupError :=
    liftWire_unraised (by decide)
  have hcount : opaqueCount a.remainingAccounts ≠ .error lookupError := by
    intro h
    have herr := (okOr_error_iff.mp h).2
    cases herr
  have hbuild : ∀ capability, buildEngineRequest a d args i.protocolFee i.intentDigest callPhase
      context preSequence i.authorizedCapabilityHash capability ≠ .error lookupError := by
    intro capability h
    simp only [buildEngineRequest, except_bind_error_iff, hcount, hwire, and_false, exists_false,
      or_self] at h
  simp only [phaseRequest, except_bind_error_iff, hwire, false_or] at h
  obtain ⟨capability, -, h⟩ := h
  split at h
  · simp only [except_bind_error_iff, require_error_iff, hbuild, except_pure_ne_error, and_false,
      exists_false, or_false] at h
    obtain ⟨-, h⟩ := h
    cases h
  · simp only [except_bind_error_iff, hbuild, except_pure_ne_error, and_false, exists_false,
      or_self] at h

private theorem commit_unraised (hi : IntentOk L a d args phase i) (hsame : SameOwnership L w.ledger)
    {receipt : Wire.Routed.EngineReceipt} {settlementDigest : Hash} :
    Unraised (commit env a d args i receipt settlementDigest) w := by
  unfold Unraised commit
  apply Exec.ends_get_bind
  apply Exec.ends_ofExcept_bind_of
  · intro err herr heq
    exact phaseRequest_unraised (heq ▸ herr)
  intro request _
  rw [capabilityDescriptors_drop]
  apply Exec.Ends.bind (invokeEnginePhase_unraised hi hsame)
  intro receipt' w₁ _
  apply Exec.ends_ofExcept_bind_of
  · intro err herr heq
    have hmem := validateReceiptBinding_error herr
    exact absurd (heq ▸ hmem) (by decide)
  intro _ _
  apply Exec.ends_ofExcept_bind_of
  · intro err herr heq
    rw [← (require_error_iff.mp herr).2] at heq
    cases heq
  intro _ _
  apply Exec.ends_ofExcept_bind_of
  · intro err herr heq
    rw [← (okOr_error_iff.mp herr).2] at heq
    cases heq
  intro _ _
  apply Exec.ends_ofExcept_bind_of
  · intro err herr heq
    rw [← (require_error_iff.mp herr).2] at heq
    cases heq
  intro _ _
  apply Exec.ends_ofExcept_bind_of
  · intro err herr heq
    exact liftWire_unraised (by decide) (heq ▸ herr)
  intro _ _
  exact Exec.ends_of_ok (Exec.run_pure _ w₁) trivial

/-- The routed Core never ends with the error of a failed lookup, in either phase mode. -/
theorem routed_unraised (env : Env Routed.config) (w : Core.World)
    (a : ExecuteCallbackAuthenticatedProbeV0) (args : ExecuteCallbackAuthenticatedProbeV0Args) :
    Unraised (handleExecuteCallbackAuthenticatedProbeV0 env a args) w := by
  unfold Unraised handleExecuteCallbackAuthenticatedProbeV0
  apply Exec.ends_get_bind
  apply Exec.ends_ofExcept_bind_of
  · intro err herr heq
    exact prepareExecution_unraised (heq ▸ herr)
  intro p hp
  obtain ⟨d, hload, phase, hvalid⟩ : ∃ d, Routed.loadExecute w.ledger a = .ok d ∧
      ∃ phase, Routed.validateAccounts env w.ledger a d args = .ok phase := by
    simp only [prepareExecution, except_bind_ok_iff] at hp
    obtain ⟨d, hload, phase, hvalid, -⟩ := hp
    exact ⟨d, hload, phase, hvalid⟩
  have hr := Routed.ready_of_ok hload hvalid
  obtain ⟨rfl, rfl, hi, hok, -⟩ := prepareExecution_parts hload hvalid hp
  rw [capabilityDescriptors_drop]
  have hcall : Unraised (invokeEnginePhase env a (phaseDescriptors p.intent.opaqueDescriptors
      (primaryMode p.phase)) p.primaryRequest a.primaryCallback p.intent.primaryCallback.bump) w :=
    invokeEnginePhase_unraised hi (.refl _)
  apply Exec.Ends.bind hcall.with_run
  intro receipt w₁ hrun
  obtain ⟨c, hcalled⟩ := invokeEnginePhase_ok hrun.2
  apply Exec.ends_ofExcept_bind_of
  · intro err herr heq
    exact acceptPrimary_unraised (heq ▸ herr)
  intro accepted _
  have hsettle : Unraised (settleAuthenticatedIntent a p.d args p.intent accepted.2) w₁ := by
    unfold Unraised settleAuthenticatedIntent
    apply Exec.ends_ofExcept_bind_of
    · intro err herr heq
      exact signerOfSeeds_unraised (heq ▸ herr)
    intro signer _
    apply Exec.Ends.bind settle_unraised
    intro after w₂ _
    apply Exec.ends_ofExcept_bind_of
    · intro err herr heq
      rw [← (require_error_iff.mp herr).2] at heq
      cases heq
    intro _ _
    exact Exec.ends_of_ok (Exec.run_pure after w₂) trivial
  apply Exec.Ends.bind hsettle.with_run
  intro after w₂ hsettled
  apply Exec.ends_ofExcept_bind_of
  · intro err herr heq
    exact liftWire_unraised (by decide) (heq ▸ herr)
  intro settlementDigest _
  have hcommit : Unraised (commitPhase env a p.d args p.intent receipt settlementDigest) w₂ := by
    unfold commitPhase
    split
    · next htiming =>
      apply commit_unraised hi
      have hphase : p.phase = Wire.Routed.phasePrepare := by
        rcases primaryPhase_ok hr.terms.phase with ⟨ht, -⟩ | ⟨-, hphase⟩
        · rw [ht] at htiming
          exact absurd htiming (by decide)
        · exact hphase
      rw [hphase, primaryMode_prepare] at hcalled
      rw [← hcalled.prepare_unchanged (hok.phase.trans hphase)]
      have hrun₂ := hsettled.2
      simp only [settleAuthenticatedIntent, Exec.bind_ok_iff, Exec.ofExcept_ok_iff,
        Exec.pure_ok_iff] at hrun₂
      obtain ⟨_, _, ⟨-, rfl⟩, _, _, hsettle, _, _, ⟨-, rfl⟩, -, rfl⟩ := hrun₂
      exact settle_sameOwnership hsettle
    · exact Exec.ends_of_ok (Exec.run_pure noCommit w₂) trivial
  apply Exec.Ends.bind hcommit
  intro outcome w₃ _
  obtain ⟨w', hrecord⟩ := recordExecution_succeeds hi.count
  exact Exec.ends_of_ok hrecord trivial

end Routed

end Never

/-- The lookup for the engine call finds a sufficient position for every descriptor: of the
generated Core, and of the routed Core in both phase modes. Neither Core ends with its error. -/
theorem lookup_available [Crypto] :
    (∀ (cfg : Config) accounts fixedEnvelopeKeys ds,
      validateOpaqueCapabilities cfg accounts fixedEnvelopeKeys = .ok ds → SameAccounts accounts →
      ∀ ds', (ds' = ds ∨ ∃ (L : Ledger) (engineState : AccountInfo) (mode : CapabilityMode),
          ds' = (Routed.capabilityDescriptors L engineState ds mode).drop 1) →
        ∃ found, ds'.mapM (normalizedInfo accounts) = .ok (found.map (·.toAccountInfo)) ∧
          List.Forall₂ (Sufficient accounts) ds' found ∧
          List.Forall₂ Covers (ds'.map opaqueMeta) (found.map (·.toAccountInfo))) ∧
    (∀ (env : Env Generated.config) (w w' : Core.World) (a : ExecuteEngineGeneratedProbeV0)
      (args : ExecuteEngineGeneratedProbeV0Args),
      (Generated.handleExecuteEngineGeneratedProbeV0 env a args).run w ≠
        (.error (.core .opaqueNormalizedPrivilegeUnavailable), w')) ∧
    ∀ (env : Env Routed.config) (w w' : Core.World) (a : ExecuteCallbackAuthenticatedProbeV0)
      (args : ExecuteCallbackAuthenticatedProbeV0Args),
      (Routed.handleExecuteCallbackAuthenticatedProbeV0 env a args).run w ≠
        (.error (.core .opaqueNormalizedPrivilegeUnavailable), w') := by
  refine ⟨fun cfg accounts fixedEnvelopeKeys ds h hsame ds' hds' => ?_,
    fun env w w' a args h => (generated_unraised env w a args).of_error h rfl,
    fun env w w' a args h => (routed_unraised env w a args).of_error h rfl⟩
  have hunsigned : ∀ d ∈ ds, d.isSigner = false := by
    intro d hd
    have hadmitted := (validateOpaqueCapabilities_ok h).2
    obtain ⟨account, -, hd⟩ := exists_of_forall₂_mem hadmitted hd
    exact hd.isSigner
  have hweak : ∀ d' ∈ ds', ∃ d ∈ ds, Weakens d' d := by
    rcases hds' with rfl | ⟨L, engineState, mode, rfl⟩
    · exact fun d hd => ⟨d, hd, .refl d⟩
    · rw [Routed.capabilityDescriptors_drop]
      exact fun d' hd' => Routed.phaseDescriptors_weaken hunsigned hd'
  obtain ⟨found, hinfos, hfound⟩ := lookup_succeeds h hsame hweak
  refine ⟨found, hinfos, hfound, ?_⟩
  rw [List.forall₂_map_left_iff, List.forall₂_map_right_iff]
  exact hfound.imp fun _ _ hsufficient => hsufficient.covers

theorem lookup_available_sample : ∃ found,
    [spreadDescriptor, spreadDescriptor].mapM (normalizedInfo spread) =
      .ok (found.map (·.toAccountInfo)) ∧
    List.Forall₂ (Sufficient spread) [spreadDescriptor, spreadDescriptor] found ∧
    List.Forall₂ Covers ([spreadDescriptor, spreadDescriptor].map opaqueMeta)
      (found.map (·.toAccountInfo)) := by
  have hsame : SameAccounts spread := by
    unfold SameAccounts
    decide
  obtain ⟨hlookup, -, -⟩ := @lookup_available Generated.Sample.crypto
  exact hlookup Routed.config spread _ _ spread_accepted hsame _ (.inl rfl)

end ProgrammableSolana.Cores
