import ProgrammableSolana.Core.ExecuteEffect
import ProgrammableSolana.Routed.Execute
import ProgrammableSolana.Wire.RoutedCodec

/-! A successful `execute_callback_authenticated_probe` in parts. -/
namespace ProgrammableSolana.Routed

open ProgrammableSolana.Lib ProgrammableSolana.Solana ProgrammableSolana.Core
open ProgrammableSolana.Wire.Routed (timingSingle timingPrepareCommit phaseTransition phasePrepare
  phaseCommit)

section Checks

variable [Crypto]

/-- What loading and checking the accounts establish. -/
structure AccountsOk (L : Ledger) (a : ExecuteCallbackAuthenticatedProbeV0) (d : EnvelopeData) :
    Prop where
  distinct : a.fixedEnvelopeKeys.Nodup
  bound : Bound config L a.toEnvelope d
  profiled : Profiled a.toEnvelope d

/-- What the handler's first checks establish about the terms. -/
structure TermsOk (env : Env config) (args : ExecuteCallbackAuthenticatedProbeV0Args)
    (phase : UInt8) : Prop where
  payload : args.opaquePayload.length ≤ Wire.maxOpaquePayloadLen
  phase : primaryPhase args.timingMode = .ok phase
  amountIn : 0 < args.amountIn
  slot : env.slot ≤ args.expiresAtSlot

omit [Crypto] in
theorem primaryPhase_ok {timingMode phase : UInt8} (h : primaryPhase timingMode = .ok phase) :
    (timingMode = timingSingle ∧ phase = phaseTransition) ∨
      (timingMode = timingPrepareCommit ∧ phase = phasePrepare) := by
  unfold primaryPhase at h
  split at h
  · next hs => exact .inl ⟨hs, (Except.ok.inj h).symm⟩
  · split at h
    · next hp => exact .inr ⟨hp, (Except.ok.inj h).symm⟩
    · cases h

theorem validateAccounts_ok {env : Env config} {L : Ledger}
    {a : ExecuteCallbackAuthenticatedProbeV0} {d : EnvelopeData}
    {args : ExecuteCallbackAuthenticatedProbeV0Args} {phase : UInt8}
    (hload : loadExecute L a = .ok d) (h : validateAccounts env L a d args = .ok phase) :
    AccountsOk L a d ∧ TermsOk env args phase := by
  unfold loadExecute at hload
  simp only [except_bind_ok_iff, except_pure_ok_iff] at hload
  obtain ⟨d, hload, _, hconstrain, rfl⟩ := hload
  unfold validateAccounts validateExecutionEnvelope validateOpaquePayload at h
  simp only [except_bind_ok_iff, require_ok_iff, ensureDistinctRoles_ok_iff,
    except_pure_ok_iff] at h
  obtain ⟨_, hpayload, _, hphase, _, hin, _, hslot, _, hroles, _, ⟨_, hbind, _, -, _, -, _, -, _, -,
    _, -, hprofile⟩, rfl⟩ := h
  exact ⟨⟨hroles, bound_of_ok hload hconstrain hbind, profiled_of_ok hprofile⟩,
    ⟨hpayload, hphase, hin, hslot⟩⟩

theorem AccountsOk.tokenKeys_nodup {L : Ledger} {a : ExecuteCallbackAuthenticatedProbeV0}
    {d : EnvelopeData} (h : AccountsOk L a d) : a.toEnvelope.tokenKeys.Nodup := by
  have hroles := h.distinct
  refine hroles.sublist ?_
  simp only [ExecuteCallbackAuthenticatedProbeV0.fixedEnvelopeKeys, Envelope.tokenKeys]
  exact .cons _ <| .cons _ <| .cons _ <| .cons _ <| .cons _ <| .cons_cons _ <| .cons_cons _ <|
    .cons_cons _ <| .cons_cons _ <| .cons_cons _ <| List.nil_sublist _

/-- The engine state is no account of the Token program: the engine program is another one. -/
theorem AccountsOk.engineState_foreign {L : Ledger} {a : ExecuteCallbackAuthenticatedProbeV0}
    {d : EnvelopeData} (h : AccountsOk L a d) : (L a.engineState.key).owner ≠ tokenProgram := by
  have hroles := h.distinct
  rw [h.bound.engineStateOwner, ← h.bound.tokenProgramKey]
  simp only [ExecuteCallbackAuthenticatedProbeV0.fixedEnvelopeKeys, List.nodup_cons, List.mem_cons,
    not_or] at hroles
  obtain ⟨-, -, -, -, -, -, -, -, -, -, hp, -⟩ := hroles
  exact hp.2.2.2.2.1

/-- A user source left to one address to spend one exact amount from. -/
structure DelegatedProfile (account : TokenAccount) (mint spendAuthority : Pubkey)
    (exactTotalDebit : UInt64) : Prop where
  state : account.state = .initialized
  isNative : account.isNative = none
  mint : account.mint = mint
  delegate : account.delegate = some spendAuthority
  delegatedAmount : account.delegatedAmount = exactTotalDebit
  closeAuthority : account.closeAuthority = none

omit [Crypto] in
theorem validateDelegatedSpendSource_ok_iff {account : TokenAccount} {mint spendAuthority : Pubkey}
    {exactTotalDebit : UInt64} {u : Unit} :
    validateDelegatedSpendSource account mint spendAuthority exactTotalDebit = .ok u ↔
      DelegatedProfile account mint spendAuthority exactTotalDebit := by
  unfold validateDelegatedSpendSource
  simp only [except_bind_ok_iff, validateCommonTokenAccount_ok_iff, require_ok_iff]
  constructor
  · rintro ⟨_, ⟨hs, hn, hm⟩, _, hd, _, ha, hc⟩
    exact ⟨hs, hn, hm, hd, ha, hc⟩
  · intro h
    exact ⟨(), ⟨h.state, h.isNative, h.mint⟩, (), h.delegate, (), h.delegatedAmount,
      h.closeAuthority⟩

/-- What authenticating the intent establishes. -/
structure IntentOk (L : Ledger) (a : ExecuteCallbackAuthenticatedProbeV0) (d : EnvelopeData)
    (args : ExecuteCallbackAuthenticatedProbeV0Args) (phase : UInt8) (i : AuthenticatedIntent) :
    Prop where
  fee : i.protocolFee.toNat = ceilFee args.amountIn.toNat d.market.feeBps.toNat
  maxFee : i.protocolFee ≤ args.maxProtocolFee
  total : i.totalInputDebit.toNat = args.amountIn.toNat + i.protocolFee.toNat
  maxTotal : i.totalInputDebit ≤ args.maxTotalInputDebit
  held : i.totalInputDebit ≤ d.userSourceA.amount
  liquidity : args.minOutputCredit ≤ d.domain.accountedB
  admitted : List.Forall₂ (fun info descriptor => Admitted config
    (a.remainingAccounts.map (accountView L)) a.fixedEnvelopeKeys (accountView L info) descriptor)
    a.remainingAccounts i.opaqueDescriptors
  count : a.remainingAccounts.length ≤ Wire.maxOpaqueAccounts
  capabilityHash : i.authorizedCapabilityHash = args.expectedCapabilityHash
  capability : Wire.Routed.computeCapabilityHash a.engineProgram.key (capabilityDescriptors L
    a.engineState i.opaqueDescriptors .authorized) = .ok i.authorizedCapabilityHash
  payloadHash : Wire.Routed.computePayloadHash args.opaquePayload = .ok i.payloadHash
  intentDigest : Wire.Routed.computeIntentDigest (boundIntent a d args i.protocolFee
    i.authorizedCapabilityHash i.payloadHash) = .ok i.intentDigest
  spendAuthority : canonicalSpendAuthority a.userSourceA.key i.intentDigest =
    .ok (i.spendAuthority, i.spendBump)
  spendKey : a.spendAuthority.key = i.spendAuthority
  source : DelegatedProfile d.userSourceA a.mintA.key i.spendAuthority i.totalInputDebit
  primaryCallback : canonicalCallback a i.intentDigest phase = .ok i.primaryCallback
  primaryKey : a.primaryCallback.key = i.primaryCallback.key
  commitCallback : canonicalCallback a i.intentDigest phaseCommit = .ok i.commitCallback
  commitKey : a.commitCallback.key = i.commitCallback.key

theorem authenticateIntent_ok {L : Ledger} {a : ExecuteCallbackAuthenticatedProbeV0}
    {d : EnvelopeData} {args : ExecuteCallbackAuthenticatedProbeV0Args} {phase : UInt8}
    {i : AuthenticatedIntent} (h : authenticateIntent L a d args phase = .ok i) :
    IntentOk L a d args phase i := by
  unfold authenticateIntent validateCallbackAccount at h
  simp only [liftWire, except_bind_ok_iff, require_ok_iff, mapError_ok_iff, except_pure_ok_iff,
    validateDelegatedSpendSource_ok_iff, Prod.exists] at h
  obtain ⟨charge, hcharge, _, hheld, _, hliq, ds, hds, capability, hcap, _, hexpected, payload,
    hpayload, digest, hdigest, spend, bump, hspend, _, hkey, _, hsource, primary, hprimary, commit,
    hcommit, _, ⟨_, hpk, -⟩, _, ⟨_, hck, -⟩, rfl⟩ := h
  obtain ⟨-, hfee, hmaxFee, htotal, hmaxTotal⟩ := chargeInput_ok hcharge
  obtain ⟨hlen, hadmitted⟩ := validateOpaqueCapabilities_ok hds
  rw [List.forall₂_map_left_iff] at hadmitted
  rw [List.length_map] at hlen
  exact ⟨hfee, hmaxFee, htotal, hmaxTotal, hheld, hliq, hadmitted, hlen, hexpected, hcap, hpayload,
    hdigest, hspend, hkey, hsource, hprimary, hpk, hcommit, hck⟩

omit [Crypto] in
theorem validateReceiptBinding_ok_iff {receipt : Wire.Routed.EngineReceipt}
    {request : Wire.Routed.EngineRequest} {phase : UInt8} {intentDigest : Hash} {u : Unit} :
    validateReceiptBinding receipt request phase intentDigest = .ok u ↔ receipt.phase = phase ∧
      receipt.intentDigest = intentDigest ∧ receipt.executionDigest = request.executionDigest := by
  unfold validateReceiptBinding
  simp only [except_bind_ok_iff, require_ok_iff]
  constructor
  · rintro ⟨_, h₁, _, h₂, h₃⟩
    exact ⟨h₁, h₂, h₃⟩
  · rintro ⟨h₁, h₂, h₃⟩
    exact ⟨(), h₁, (), h₂, h₃⟩

end Checks

section Phases

/-- The opaque descriptors a phase is called with. -/
def phaseDescriptors (ds : List Wire.CapabilityDescriptor) (mode : CapabilityMode) :
    List Wire.CapabilityDescriptor :=
  ds.map fun d => if mode = .authorized then d else { d with isWritable := false, isSigner := false }

theorem capabilityDescriptors_drop (L : Ledger) (engineState : AccountInfo)
    (ds : List Wire.CapabilityDescriptor) (mode : CapabilityMode) :
    (capabilityDescriptors L engineState ds mode).drop 1 = phaseDescriptors ds mode := by
  cases mode <;> simp [capabilityDescriptors, phaseDescriptors]

@[simp] theorem phaseDescriptors_authorized (ds : List Wire.CapabilityDescriptor) :
    phaseDescriptors ds .authorized = ds := by
  simp [phaseDescriptors]

private theorem phaseDescriptors_readOnly {ds : List Wire.CapabilityDescriptor}
    {d : Wire.CapabilityDescriptor} (h : d ∈ phaseDescriptors ds .readOnly) :
    d.isWritable = false := by
  simp only [phaseDescriptors, List.mem_map] at h
  obtain ⟨d', -, rfl⟩ := h
  simp

theorem primaryMode_prepare : primaryMode phasePrepare = .readOnly := by decide

/-- The accounts the engine is ever given to write. -/
def ExecuteCallbackAuthenticatedProbeV0.engineWritable (a : ExecuteCallbackAuthenticatedProbeV0)
    (ds : List Wire.CapabilityDescriptor) (k : Pubkey) : Bool :=
  k = a.engineState.key || ds.any fun d => d.key = k && d.isWritable

variable [Crypto]

/-- The fields of the request of a phase. -/
structure RequestOk (a : ExecuteCallbackAuthenticatedProbeV0) (d : EnvelopeData)
    (args : ExecuteCallbackAuthenticatedProbeV0Args) (i : AuthenticatedIntent) (phase : UInt8)
    (phaseContextDigest : Hash) (preSequence : UInt64) (phaseCapabilityHash : Hash)
    (request : Wire.Routed.EngineRequest) : Prop where
  phase : request.binding.phase = phase
  intentDigest : request.binding.intentDigest = i.intentDigest
  phaseContextDigest : request.binding.phaseContextDigest = phaseContextDigest
  market : request.binding.market = a.market.key
  domain : request.binding.domain = a.domain.key
  engineRevision : request.binding.engineRevision = d.market.engineRevision
  amountIn : request.binding.amountIn = args.amountIn
  protocolFee : request.binding.protocolFee = i.protocolFee
  accountedInputBefore : request.binding.accountedInputBefore = d.domain.accountedA
  accountedOutputBefore : request.binding.accountedOutputBefore = d.domain.accountedB
  accountedFeeBefore : request.binding.accountedFeeBefore = d.feeLedger.accountedFeeA
  preSequence : request.binding.preSequence = preSequence
  authorizedCapabilityHash : request.binding.authorizedCapabilityHash = i.authorizedCapabilityHash
  phaseCapabilityHash : request.binding.phaseCapabilityHash = phaseCapabilityHash
  opaqueAccountCount : request.binding.opaqueAccountCount.toNat = a.remainingAccounts.length
  payload : Wire.canonicalPayload args.opaquePayload =
    .ok (request.binding.payloadLen, request.binding.payload)
  valid : Wire.Routed.validateExecutionBinding request.binding = .ok ()
  digest : Wire.Routed.computeExecutionDigest request.binding = .ok request.executionDigest

theorem buildEngineRequest_ok {a : ExecuteCallbackAuthenticatedProbeV0} {d : EnvelopeData}
    {args : ExecuteCallbackAuthenticatedProbeV0Args} {i : AuthenticatedIntent} {phase : UInt8}
    {context capability : Hash} {preSequence : UInt64} {request : Wire.Routed.EngineRequest}
    (h : buildEngineRequest a d args i.protocolFee i.intentDigest phase context preSequence
      i.authorizedCapabilityHash capability = .ok request) :
    RequestOk a d args i phase context preSequence capability request := by
  unfold buildEngineRequest Wire.Routed.ExecutionBinding.new Wire.Routed.EngineRequest.new at h
  simp only [liftWire, except_bind_ok_iff, mapError_ok_iff, except_pure_ok_iff, Prod.exists] at h
  obtain ⟨count, hcount, _, ⟨_, -, _, -, len, payload, hpayload, _, hvalid, rfl⟩, digest, hdigest,
    rfl⟩ := h
  exact ⟨rfl, rfl, rfl, rfl, rfl, rfl, rfl, rfl, rfl, rfl, rfl, rfl, rfl, rfl,
    opaqueCount_ok hcount, hpayload, hvalid, hdigest⟩

theorem phaseRequest_ok {L : Ledger} {a : ExecuteCallbackAuthenticatedProbeV0} {d : EnvelopeData}
    {args : ExecuteCallbackAuthenticatedProbeV0Args} {i : AuthenticatedIntent} {phase : UInt8}
    {mode : CapabilityMode} {context : Hash} {preSequence : UInt64} {capability : Hash}
    {request : Wire.Routed.EngineRequest}
    (h : phaseRequest L a d args i phase mode context preSequence = .ok (capability, request)) :
    RequestOk a d args i phase context preSequence capability request ∧
      Wire.Routed.computeCapabilityHash a.engineProgram.key
        (capabilityDescriptors L a.engineState i.opaqueDescriptors mode) = .ok capability := by
  unfold phaseRequest at h
  simp only [liftWire, except_bind_ok_iff, mapError_ok_iff] at h
  obtain ⟨hash, hcap, h⟩ := h
  have hbuild : buildEngineRequest a d args i.protocolFee i.intentDigest phase context preSequence
      i.authorizedCapabilityHash hash = .ok request ∧ hash = capability := by
    split at h
    · simp only [except_bind_ok_iff, require_ok_iff, except_pure_ok_iff, Prod.mk.injEq] at h
      obtain ⟨_, -, r, hr, rfl, rfl⟩ := h
      exact ⟨hr, rfl⟩
    · simp only [except_bind_ok_iff, except_pure_ok_iff, Prod.mk.injEq] at h
      obtain ⟨r, hr, rfl, rfl⟩ := h
      exact ⟨hr, rfl⟩
  obtain ⟨hr, rfl⟩ := hbuild
  exact ⟨buildEngineRequest_ok hr, hcap⟩

/-- An answered engine phase: the call that was made between the two worlds, and its receipt. -/
structure PhaseCalled (w w' : Core.World) (a : ExecuteCallbackAuthenticatedProbeV0)
    (ds : List Wire.CapabilityDescriptor) (request : Wire.Routed.EngineRequest)
    (callback : AccountInfo) (receipt : Wire.Routed.EngineReceipt) (c : EngineCall CoreState) :
    Prop where
  programId : c.instruction.programId = a.engineProgram.key
  metas : c.instruction.accounts = phaseMetas a callback ds request.binding.phase
  data : Wire.Routed.encodeEngineInstruction request = .ok c.instruction.data
  before : c.before = w.ledger
  after : c.after = w'.ledger
  returned : ∃ data, c.returned = some (a.engineProgram.key, data) ∧
    Wire.Routed.encodeReceipt receipt = .ok data
  confined : Confined ID (c.instruction.privileges ID).writable w.ledger w'.ledger
  calls : engineCalls w'.log = engineCalls w.log ++ [c]
  emitted : emittedEvents w'.log = emittedEvents w.log

theorem invokeEnginePhase_ok {env : Env config} {a : ExecuteCallbackAuthenticatedProbeV0}
    {ds : List Wire.CapabilityDescriptor} {request : Wire.Routed.EngineRequest}
    {callback : AccountInfo} {bump : UInt8} {receipt : Wire.Routed.EngineReceipt}
    {w w' : Core.World}
    (h : (invokeEnginePhase env a ds request callback bump).run w = (.ok receipt, w')) :
    ∃ c, PhaseCalled w w' a ds request callback receipt c := by
  unfold invokeEnginePhase at h
  simp only [Exec.bind_ok_iff, Exec.get_ok_iff, Exec.ofExcept_ok_iff, Exec.mapError_run_ok_iff,
    except_bind_ok_iff, liftWire, mapError_ok_iff, Prod.exists] at h
  obtain ⟨_, _, ⟨rfl, rfl⟩, ix, infos, _, ⟨hix, rfl⟩, signer, _, ⟨-, rfl⟩, _, w₁, hinvoke, _, _,
    ⟨rfl, rfl⟩, ⟨data, htake, hdecode⟩, rfl⟩ := h
  unfold phaseInstruction at hix
  simp only [liftWire, except_bind_ok_iff, require_ok_iff, mapError_ok_iff, except_pure_ok_iff,
    Prod.mk.injEq] at hix
  obtain ⟨_, -, ixData, hdata, _, -, rfl, -⟩ := hix
  have hconf := invokeSigned_confined config.ID_ne_token config.ID_ne_system hinvoke
  obtain ⟨c, hc, hbefore, hafter, hreturned, hcalls, hemitted⟩ := invokeSigned_called hinvoke
  refine ⟨c, by rw [hc], by rw [hc], by rw [hc]; exact hdata, hbefore, hafter, ⟨data, ?_, ?_⟩, ?_,
    hcalls, hemitted⟩
  · exact hreturned.trans (takeReceipt_ok htake)
  · exact Wire.Routed.decodeReceipt_ok_iff.mp hdecode
  · rw [hc]
    exact hconf

/-- A phase call lets the engine write what its metas list as writable. -/
theorem PhaseCalled.writable {w w' : Core.World} {a : ExecuteCallbackAuthenticatedProbeV0}
    {ds : List Wire.CapabilityDescriptor} {request : Wire.Routed.EngineRequest}
    {callback : AccountInfo} {receipt : Wire.Routed.EngineReceipt} {c : EngineCall CoreState}
    (h : PhaseCalled w w' a ds request callback receipt c) {k : Pubkey}
    (hk : (c.instruction.privileges ID).writable k = true) :
    (request.binding.phase ≠ phasePrepare ∧ k = a.engineState.key) ∨
      ∃ d ∈ ds, d.key = k ∧ d.isWritable = true := by
  unfold Instruction.privileges at hk
  simp only [h.metas, phaseMetas, AccountMeta.newReadonly, List.any_cons, List.any_map,
    Bool.or_eq_true, List.any_eq_true, Bool.and_eq_true, decide_eq_true_eq, Bool.and_false,
    Bool.false_eq_true, false_or, Function.comp_apply, opaqueMeta_pubkey,
    opaqueMeta_isWritable] at hk
  rcases hk with ⟨hkey, hw⟩ | hd
  · refine .inl ?_
    split at hkey
    · next hp => simp [hp] at hw
    · next hp => exact ⟨hp, hkey.symm⟩
  · exact .inr hd

theorem PhaseCalled.prepare_unchanged {w w' : Core.World}
    {a : ExecuteCallbackAuthenticatedProbeV0} {ds : List Wire.CapabilityDescriptor}
    {request : Wire.Routed.EngineRequest} {callback : AccountInfo}
    {receipt : Wire.Routed.EngineReceipt} {c : EngineCall CoreState}
    (h : PhaseCalled w w' a (phaseDescriptors ds .readOnly) request callback receipt c)
    (hphase : request.binding.phase = phasePrepare) : w'.ledger = w.ledger := by
  funext k
  refine h.confined.frame k ?_
  by_contra hk
  rcases h.writable (by simpa using hk) with ⟨hp, -⟩ | ⟨d, hd, -, hw⟩
  · exact hp hphase
  · rw [phaseDescriptors_readOnly hd] at hw
    cases hw

theorem PhaseCalled.confined_engine {w w' : Core.World}
    {a : ExecuteCallbackAuthenticatedProbeV0} {ds : List Wire.CapabilityDescriptor}
    {mode : CapabilityMode} {request : Wire.Routed.EngineRequest} {callback : AccountInfo}
    {receipt : Wire.Routed.EngineReceipt} {c : EngineCall CoreState}
    (h : PhaseCalled w w' a (phaseDescriptors ds mode) request callback receipt c) :
    Confined ID (a.engineWritable ds) w.ledger w'.ledger := by
  refine h.confined.mono fun k hk => ?_
  unfold ExecuteCallbackAuthenticatedProbeV0.engineWritable at hk
  simp only [Bool.or_eq_false_iff, decide_eq_false_iff_not, List.any_eq_false, Bool.and_eq_true,
    decide_eq_true_eq, not_and, Bool.not_eq_true] at hk
  by_contra hne
  rcases h.writable (by simpa using hne) with ⟨-, hstate⟩ | ⟨d, hd, hkey, hw⟩
  · exact hk.1 hstate
  · cases mode with
    | authorized =>
      rw [phaseDescriptors_authorized] at hd
      rw [hk.2 d hd hkey] at hw
      cases hw
    | readOnly =>
      rw [phaseDescriptors_readOnly hd] at hw
      cases hw

/-- Nothing of the Token program is in the engine's reach. -/
theorem IntentOk.engine_foreign {L : Ledger} {a : ExecuteCallbackAuthenticatedProbeV0}
    {d : EnvelopeData} {args : ExecuteCallbackAuthenticatedProbeV0Args} {phase : UInt8}
    {i : AuthenticatedIntent} (h : IntentOk L a d args phase i) (ha : AccountsOk L a d) (k : Pubkey)
    (hk : a.engineWritable i.opaqueDescriptors k = true) : (L k).owner ≠ tokenProgram := by
  unfold ExecuteCallbackAuthenticatedProbeV0.engineWritable at hk
  simp only [Bool.or_eq_true, decide_eq_true_eq, List.any_eq_true, Bool.and_eq_true] at hk
  rcases hk with rfl | ⟨d, hd, rfl, hw⟩
  · exact ha.engineState_foreign
  · obtain ⟨info, -, hadmitted⟩ := exists_of_forall₂_mem h.admitted hd
    rw [hadmitted.key]
    exact (hadmitted.notToken hw).1

/-- A phase whose receipt the Core accepted for its request. -/
structure PhaseAccepted (w w' : Core.World) (a : ExecuteCallbackAuthenticatedProbeV0)
    (d : EnvelopeData) (args : ExecuteCallbackAuthenticatedProbeV0Args) (i : AuthenticatedIntent)
    (phase : UInt8) (mode : CapabilityMode) (context : Hash) (preSequence : UInt64)
    (callback : AccountInfo) (request : Wire.Routed.EngineRequest)
    (receipt : Wire.Routed.EngineReceipt) (c : EngineCall CoreState) : Prop where
  requested : ∃ capability, RequestOk a d args i phase context preSequence capability request
  called : PhaseCalled w w' a (phaseDescriptors i.opaqueDescriptors mode) request callback receipt c
  receiptPhase : receipt.phase = phase
  receiptIntent : receipt.intentDigest = i.intentDigest
  receiptExecution : receipt.executionDigest = request.executionDigest

/-- The second engine call of a two-phase execution. -/
structure Committed (w w' : Core.World) (a : ExecuteCallbackAuthenticatedProbeV0)
    (d : EnvelopeData) (args : ExecuteCallbackAuthenticatedProbeV0Args) (i : AuthenticatedIntent)
    (primaryReceipt : Wire.Routed.EngineReceipt) (settlementDigest : Hash)
    (request : Wire.Routed.EngineRequest) (receipt : Wire.Routed.EngineReceipt)
    (c : EngineCall CoreState) : Prop where
  accepted : PhaseAccepted w w' a d args i phaseCommit .authorized settlementDigest
    primaryReceipt.stateSequence a.commitCallback request receipt c
  amountOut : receipt.amountOut = primaryReceipt.amountOut
  sequence : receipt.stateSequence.toNat = primaryReceipt.stateSequence.toNat + 1

theorem commit_ok {env : Env config} {a : ExecuteCallbackAuthenticatedProbeV0} {d : EnvelopeData}
    {args : ExecuteCallbackAuthenticatedProbeV0Args} {i : AuthenticatedIntent}
    {primaryReceipt : Wire.Routed.EngineReceipt} {settlementDigest : Hash} {outcome : CommitOutcome}
    {w w' : Core.World}
    (h : (commit env a d args i primaryReceipt settlementDigest).run w = (.ok outcome, w')) :
    ∃ request receipt c, Committed w w' a d args i primaryReceipt settlementDigest request receipt
      c := by
  unfold commit at h
  simp only [Exec.bind_ok_iff, Exec.get_ok_iff, Exec.ofExcept_ok_iff, validateReceiptBinding_ok_iff,
    require_ok_iff, okOr_ok_iff, checkedAdd_eq_some, Prod.exists, capabilityDescriptors_drop] at h
  obtain ⟨_, _, ⟨rfl, rfl⟩, hash, request, _, ⟨hrequest, rfl⟩, receipt, w₁, hinvoke, _, _,
    ⟨⟨hphase, hintent, hexecution⟩, rfl⟩, _, _, ⟨hout, rfl⟩, next, _, ⟨hnext, rfl⟩, _, _,
    ⟨hseq, rfl⟩, _, _, ⟨-, rfl⟩, hpure⟩ := h
  obtain ⟨-, rfl⟩ := Exec.pure_ok_iff.mp hpure
  obtain ⟨c, hcalled⟩ := invokeEnginePhase_ok hinvoke
  refine ⟨request, receipt, c, ⟨⟨hash, (phaseRequest_ok hrequest).1⟩, hcalled, hphase, hintent,
    hexecution⟩, hout, ?_⟩
  rw [hseq, hnext]
  rfl

end Phases

section Execution

variable [Crypto]

def AcceptedSettlement.post (s : AcceptedSettlement) : PostAccounted :=
  ⟨s.postAccountedA, s.postAccountedB, s.postAccountedFeeA⟩

/-- What accepting an output establishes. -/
structure SettlementOk (d : EnvelopeData) (args : ExecuteCallbackAuthenticatedProbeV0Args)
    (i : AuthenticatedIntent) (amountOut : UInt64) (s : AcceptedSettlement) : Prop where
  protocolFee : s.protocolFee = i.protocolFee
  totalInputDebit : s.totalInputDebit = i.totalInputDebit
  amountOut : s.amountOut = amountOut
  postA : s.postAccountedA.toNat = d.domain.accountedA.toNat + args.amountIn.toNat
  postB : d.domain.accountedB.toNat = s.postAccountedB.toNat + s.amountOut.toNat
  postFeeA : s.postAccountedFeeA.toNat = d.feeLedger.accountedFeeA.toNat + s.protocolFee.toNat

omit [Crypto] in
theorem acceptSettlement_ok {d : EnvelopeData} {args : ExecuteCallbackAuthenticatedProbeV0Args}
    {i : AuthenticatedIntent} {amountOut : UInt64} {s : AcceptedSettlement}
    (h : acceptSettlement d args i amountOut = .ok s) : SettlementOk d args i amountOut s := by
  unfold acceptSettlement at h
  simp only [except_bind_ok_iff, okOr_ok_iff, checkedAdd_eq_some, checkedSub_eq_some,
    except_pure_ok_iff] at h
  obtain ⟨postA, hA, postB, hB, postFeeA, hF, rfl⟩ := h
  exact ⟨rfl, rfl, rfl, hA, hB, hF⟩

/-- The stages of a successful execution. -/
structure Stages where
  d : EnvelopeData
  after : EnvelopeData
  phase : UInt8
  intent : AuthenticatedIntent
  request : Wire.Routed.EngineRequest
  receipt : Wire.Routed.EngineReceipt
  call : EngineCall CoreState
  receiptDigest : Hash
  settlement : AcceptedSettlement
  settlementDigest : Hash

/-- The sequence the engine reported for the primary phase. -/
def SequenceOk (phase : UInt8) (expected actual : UInt64) : Prop :=
  actual.toNat = if phase = phasePrepare then expected.toNat else expected.toNat + 1

omit [Crypto] in
theorem validatePrimarySequence_ok_iff {phase : UInt8} {expected actual : UInt64} {u : Unit} :
    validatePrimarySequence phase expected actual = .ok u ↔ SequenceOk phase expected actual := by
  unfold validatePrimarySequence SequenceOk
  by_cases hp : phase = phasePrepare
  · simp only [hp, if_true, require_ok_iff, UInt64.toNat_inj]
  · simp only [hp, if_false, except_bind_ok_iff, okOr_ok_iff, checkedAdd_eq_some, require_ok_iff]
    constructor
    · rintro ⟨_, h, rfl⟩
      exact h
    · exact fun h => ⟨actual, h, rfl⟩

/-- Everything a successful execution went through. `w₁` is the world after the primary phase,
`w₂` the one after the settlement and `w₃` the one before the accounted fields are stored. -/
structure CallbackAuthenticated (env : Env config) (w w₁ w₂ w₃ w' : Core.World)
    (a : ExecuteCallbackAuthenticatedProbeV0) (args : ExecuteCallbackAuthenticatedProbeV0Args)
    (x : Stages) : Prop where
  prepared : ∃ capability, prepareExecution env w.ledger a args =
    .ok ⟨x.d, x.phase, x.intent, capability, x.request⟩
  accounts : AccountsOk w.ledger a x.d
  terms : TermsOk env args x.phase
  intent : IntentOk w.ledger a x.d args x.phase x.intent
  primary : PhaseAccepted w w₁ a x.d args x.intent x.phase (primaryMode x.phase) (Bytes.zero 32)
    args.expectedEngineSequence a.primaryCallback x.request x.receipt x.call
  sequence : SequenceOk x.phase args.expectedEngineSequence x.receipt.stateSequence
  accepted : 0 < x.receipt.amountOut ∧ args.minOutputCredit ≤ x.receipt.amountOut ∧
    x.receipt.amountOut ≤ x.d.domain.accountedB
  receiptDigest : Wire.Routed.computeReceiptDigest x.receipt = .ok x.receiptDigest
  settlement : SettlementOk x.d args x.intent x.receipt.amountOut x.settlement
  settled : Settled w₁.ledger w₂.ledger a.toEnvelope x.d x.after a.spendAuthority.key
    (x.settlement.terms args)
  cleared : x.after.userSourceA.delegate = none ∧ x.after.userSourceA.delegatedAmount = 0
  settlementDigest : Wire.Routed.computeSettlementDigest (settlementBinding x.after args
    x.settlement x.intent.intentDigest x.request.executionDigest x.receiptDigest) =
      .ok x.settlementDigest
  calls₂ : engineCalls w₂.log = engineCalls w₁.log
  emitted₂ : emittedEvents w₂.log = emittedEvents w₁.log
  committed : (args.timingMode = timingSingle ∧ w₃ = w₂) ∨ (args.timingMode = timingPrepareCommit ∧
    ∃ request receipt c, Committed w₂ w₃ a x.d args x.intent x.receipt x.settlementDigest request
      receipt c)
  stored : w'.ledger = accountedLedger w₃.ledger a.toEnvelope x.d x.settlement.postAccountedA
    x.settlement.postAccountedB x.settlement.postAccountedFeeA
  emitted : ∃ e : CallbackAuthenticatedProbeExecutedV0,
    w'.log = w₃.log ++ [.emitted (.callbackAuthenticatedProbeExecuted e)] ∧
    e.market = a.market.key ∧ e.userInput = a.userSourceA.key ∧
    e.spendAuthority = a.spendAuthority.key ∧ e.intentDigest = x.intent.intentDigest ∧
    e.amountIn = args.amountIn ∧ e.amountOut = x.settlement.amountOut ∧
    e.protocolFee = x.settlement.protocolFee

omit [Crypto] in
theorem validateAmountOut_ok_iff {amountOut minimum liquidity : UInt64} {u : Unit} :
    validateAmountOut amountOut minimum liquidity = .ok u ↔
      0 < amountOut ∧ minimum ≤ amountOut ∧ amountOut ≤ liquidity := by
  unfold validateAmountOut
  simp only [except_bind_ok_iff, require_ok_iff]
  constructor
  · rintro ⟨_, h₁, _, h₂, h₃⟩
    exact ⟨h₁, h₂, h₃⟩
  · rintro ⟨h₁, h₂, h₃⟩
    exact ⟨(), h₁, (), h₂, h₃⟩

theorem settleAuthenticatedIntent_ok {a : ExecuteCallbackAuthenticatedProbeV0} {d : EnvelopeData}
    {args : ExecuteCallbackAuthenticatedProbeV0Args} {i : AuthenticatedIntent}
    {s : AcceptedSettlement} {after : EnvelopeData} {w w' : Core.World}
    (h : (settleAuthenticatedIntent a d args i s).run w = (.ok after, w'))
    (htokens : TokensAt w.ledger a.toEnvelope d) (hnodup : a.toEnvelope.tokenKeys.Nodup) :
    Settled w.ledger w'.ledger a.toEnvelope d after a.spendAuthority.key (s.terms args) ∧
      (after.userSourceA.delegate = none ∧ after.userSourceA.delegatedAmount = 0) ∧
      engineCalls w'.log = engineCalls w.log ∧ emittedEvents w'.log = emittedEvents w.log := by
  unfold settleAuthenticatedIntent at h
  simp only [Exec.bind_ok_iff, Exec.ofExcept_ok_iff, require_ok_iff] at h
  obtain ⟨signer, _, ⟨-, rfl⟩, after, w₁, hsettle, _, _, ⟨hcleared, rfl⟩, hpure⟩ := h
  obtain ⟨rfl, rfl⟩ := Exec.pure_ok_iff.mp hpure
  obtain ⟨hsettled, -⟩ := settle_ok hsettle htokens hnodup
  obtain ⟨hcalls, hemitted⟩ := settle_quiet hsettle
  exact ⟨hsettled, hcleared, hcalls, hemitted⟩

omit [Crypto] in
theorem recordExecution_ok {a : ExecuteCallbackAuthenticatedProbeV0} {after : EnvelopeData}
    {args : ExecuteCallbackAuthenticatedProbeV0Args} {p : PreparedExecution}
    {receiptDigest settlementDigest : Hash} {receipt : Wire.Routed.EngineReceipt}
    {s : AcceptedSettlement} {outcome : CommitOutcome} {w w' : Core.World} {u : Unit}
    (h : (recordExecution a args p receipt receiptDigest s after settlementDigest outcome).run w =
      (.ok u, w')) :
    w'.ledger = accountedLedger w.ledger a.toEnvelope p.d s.postAccountedA s.postAccountedB
      s.postAccountedFeeA ∧
    ∃ e : CallbackAuthenticatedProbeExecutedV0,
      w'.log = w.log ++ [.emitted (.callbackAuthenticatedProbeExecuted e)] ∧
      e.market = a.market.key ∧ e.userInput = a.userSourceA.key ∧
      e.spendAuthority = a.spendAuthority.key ∧ e.intentDigest = p.intent.intentDigest ∧
      e.amountIn = args.amountIn ∧ e.amountOut = s.amountOut ∧ e.protocolFee = s.protocolFee := by
  unfold recordExecution writeAccounted emit at h
  simp only [Exec.bind_ok_iff, Exec.ofExcept_ok_iff, Exec.modify_ok_iff] at h
  obtain ⟨_, _, rfl, count, _, ⟨-, rfl⟩, rfl⟩ := h
  exact ⟨rfl, _, rfl, rfl, rfl, rfl, rfl, rfl, rfl, rfl⟩

theorem prepareExecution_ok {env : Env config} {L : Ledger}
    {a : ExecuteCallbackAuthenticatedProbeV0} {args : ExecuteCallbackAuthenticatedProbeV0Args}
    {p : PreparedExecution} (h : prepareExecution env L a args = .ok p) :
    AccountsOk L a p.d ∧ TermsOk env args p.phase ∧ IntentOk L a p.d args p.phase p.intent ∧
      RequestOk a p.d args p.intent p.phase (Bytes.zero 32) args.expectedEngineSequence
        p.primaryCapabilityHash p.primaryRequest := by
  unfold prepareExecution at h
  simp only [except_bind_ok_iff, except_pure_ok_iff, Prod.exists] at h
  obtain ⟨d, hload, phase, hvalid, i, hintent, capability, request, hrequest, rfl⟩ := h
  obtain ⟨haccounts, hterms⟩ := validateAccounts_ok hload hvalid
  exact ⟨haccounts, hterms, authenticateIntent_ok hintent, (phaseRequest_ok hrequest).1⟩

theorem acceptPrimary_ok {args : ExecuteCallbackAuthenticatedProbeV0Args} {p : PreparedExecution}
    {receipt : Wire.Routed.EngineReceipt} {receiptDigest : Hash} {s : AcceptedSettlement}
    (h : acceptPrimary args p receipt = .ok (receiptDigest, s)) :
    (receipt.phase = p.phase ∧ receipt.intentDigest = p.intent.intentDigest ∧
      receipt.executionDigest = p.primaryRequest.executionDigest) ∧
    SequenceOk p.phase args.expectedEngineSequence receipt.stateSequence ∧
    (0 < receipt.amountOut ∧ args.minOutputCredit ≤ receipt.amountOut ∧
      receipt.amountOut ≤ p.d.domain.accountedB) ∧
    Wire.Routed.computeReceiptDigest receipt = .ok receiptDigest ∧
    SettlementOk p.d args p.intent receipt.amountOut s := by
  unfold acceptPrimary at h
  simp only [except_bind_ok_iff, liftWire, mapError_ok_iff, validateReceiptBinding_ok_iff,
    validatePrimarySequence_ok_iff, validateAmountOut_ok_iff, except_pure_ok_iff,
    Prod.mk.injEq] at h
  obtain ⟨_, hbinding, _, hsequence, _, hamount, digest, hdigest, s, haccept, rfl, rfl⟩ := h
  exact ⟨hbinding, hsequence, hamount, hdigest, acceptSettlement_ok haccept⟩

theorem execute_ok {env : Env config} {a : ExecuteCallbackAuthenticatedProbeV0}
    {args : ExecuteCallbackAuthenticatedProbeV0Args} {w w' : Core.World} {u : Unit}
    (h : (handleExecuteCallbackAuthenticatedProbeV0 env a args).run w = (.ok u, w')) :
    ∃ w₁ w₂ w₃ x, CallbackAuthenticated env w w₁ w₂ w₃ w' a args x := by
  unfold handleExecuteCallbackAuthenticatedProbeV0 at h
  simp only [Exec.bind_ok_iff, Exec.get_ok_iff, Exec.ofExcept_ok_iff, Prod.exists,
    capabilityDescriptors_drop, liftWire, mapError_ok_iff] at h
  obtain ⟨_, _, ⟨rfl, rfl⟩, p, _, ⟨hprepare, rfl⟩, receipt, w₁, hinvoke, receiptDigest, settlement,
    _, ⟨haccept, rfl⟩, after, w₂, hsettle, settlementDigest, _, ⟨hsettlementDigest, rfl⟩, outcome,
    w₃, hcommit, hrecord⟩ := h
  obtain ⟨haccounts, hterms, hi, hrequest⟩ := prepareExecution_ok hprepare
  obtain ⟨c, hcalled⟩ := invokeEnginePhase_ok hinvoke
  obtain ⟨⟨hphase, hintent, hexecution⟩, hsequence, hamount, hreceiptDigest, hsettlement⟩ :=
    acceptPrimary_ok haccept
  have hconf : Confined config.ID (a.engineWritable p.intent.opaqueDescriptors) w.ledger
      w₁.ledger := hcalled.confined_engine
  have htokens : TokensAt w₁.ledger a.toEnvelope p.d :=
    tokensAt_of_confined haccounts.bound.tokensAt hconf (hi.engine_foreign haccounts)
  obtain ⟨hsettled, hcleared, hcalls, hemitted⟩ :=
    settleAuthenticatedIntent_ok hsettle htokens haccounts.tokenKeys_nodup
  obtain ⟨hstored, hevent⟩ := recordExecution_ok hrecord
  refine ⟨w₁, w₂, w₃, ⟨p.d, after, p.phase, p.intent, p.primaryRequest, receipt, c, receiptDigest,
    settlement, settlementDigest⟩, ⟨_, hprepare⟩, haccounts, hterms, hi, ⟨⟨_, hrequest⟩, hcalled, hphase, hintent,
    hexecution⟩, hsequence, hamount, hreceiptDigest, hsettlement, hsettled, hcleared,
    hsettlementDigest, hcalls, hemitted, ?_, hstored, hevent⟩
  unfold commitPhase at hcommit
  rcases primaryPhase_ok hterms.phase with ⟨htiming, -⟩ | ⟨htiming, -⟩
  · rw [if_neg (by rw [htiming]; decide)] at hcommit
    obtain ⟨-, rfl⟩ := Exec.pure_ok_iff.mp hcommit
    exact .inl ⟨htiming, rfl⟩
  · rw [if_pos htiming] at hcommit
    exact .inr ⟨htiming, commit_ok hcommit⟩

private theorem invokeEnginePhase_answered {env : Env config} {a : ExecuteCallbackAuthenticatedProbeV0}
    {ds : List Wire.CapabilityDescriptor} {request : Wire.Routed.EngineRequest}
    {callback : AccountInfo} {bump : UInt8} {receipt : Wire.Routed.EngineReceipt}
    {w w' : Core.World}
    (h : (invokeEnginePhase env a ds request callback bump).run w = (.ok receipt, w')) :
    ∃ c : EngineCall CoreState, engineCalls w'.log = engineCalls w.log ++ [c] ∧
      c.AnsweredBy env.callee := by
  unfold invokeEnginePhase at h
  simp only [Exec.bind_ok_iff, Exec.get_ok_iff, Exec.ofExcept_ok_iff, Exec.mapError_run_ok_iff,
    Prod.exists] at h
  obtain ⟨_, _, ⟨rfl, rfl⟩, _, _, _, ⟨-, rfl⟩, _, _, ⟨-, rfl⟩, _, w₁, hinvoke, _, _, ⟨rfl, rfl⟩, -,
    rfl⟩ := h
  exact invokeSigned_answered hinvoke

theorem execute_answered {env : Env config} {a : ExecuteCallbackAuthenticatedProbeV0}
    {args : ExecuteCallbackAuthenticatedProbeV0Args} {w w' : Core.World} {u : Unit}
    (h : (handleExecuteCallbackAuthenticatedProbeV0 env a args).run w = (.ok u, w')) :
    ∃ c cs, engineCalls w'.log = engineCalls w.log ++ c :: cs ∧
      ∀ c' ∈ c :: cs, c'.AnsweredBy env.callee := by
  unfold handleExecuteCallbackAuthenticatedProbeV0 settleAuthenticatedIntent at h
  simp only [Exec.bind_ok_iff, Exec.get_ok_iff, Exec.ofExcept_ok_iff, Prod.exists,
    Exec.pure_ok_iff] at h
  obtain ⟨_, _, ⟨rfl, rfl⟩, p, _, ⟨-, rfl⟩, receipt, w₁, hinvoke, _, _, _, ⟨-, rfl⟩, after, w₂,
    ⟨_, _, ⟨-, rfl⟩, _, w₂', hsettle, _, _, ⟨-, rfl⟩, rfl, rfl⟩, _, _, ⟨-, rfl⟩, outcome, w₃, hcommit,
    hrecord⟩ := h
  obtain ⟨c, hcalls, hanswered⟩ := invokeEnginePhase_answered hinvoke
  obtain ⟨hquiet, -⟩ := settle_quiet hsettle
  obtain ⟨-, e, hlog, -⟩ := recordExecution_ok hrecord
  have hcommitted : ∃ cs, engineCalls w₃.log = engineCalls w₂'.log ++ cs ∧
      ∀ c' ∈ cs, c'.AnsweredBy env.callee := by
    unfold commitPhase at hcommit
    split at hcommit
    · unfold commit at hcommit
      simp only [Exec.bind_ok_iff, Exec.get_ok_iff, Exec.ofExcept_ok_iff, Prod.exists,
        Exec.pure_ok_iff] at hcommit
      obtain ⟨_, _, ⟨rfl, rfl⟩, _, _, _, ⟨-, rfl⟩, _, _, hinvoke', _, _, ⟨-, rfl⟩, _, _, ⟨-, rfl⟩, _,
        _, ⟨-, rfl⟩, _, _, ⟨-, rfl⟩, _, _, ⟨-, rfl⟩, -, rfl⟩ := hcommit
      obtain ⟨c', hcalls', hanswered'⟩ := invokeEnginePhase_answered hinvoke'
      exact ⟨[c'], hcalls', by simpa using hanswered'⟩
    · obtain ⟨-, rfl⟩ := Exec.pure_ok_iff.mp hcommit
      exact ⟨[], by simp, by simp⟩
  obtain ⟨cs, hcalls', hanswered'⟩ := hcommitted
  refine ⟨c, cs, ?_, List.forall_mem_cons.mpr ⟨hanswered, hanswered'⟩⟩
  rw [hlog, engineCalls_append, hcalls', hquiet, hcalls]
  simp

namespace CallbackAuthenticated

variable {env : Env config} {w w₁ w₂ w₃ w' : Core.World} {a : ExecuteCallbackAuthenticatedProbeV0}
  {args : ExecuteCallbackAuthenticatedProbeV0Args} {x : Stages}

/-- Both phases are confined to the accounts the intent lets the engine write. -/
theorem executed (h : CallbackAuthenticated env w w₁ w₂ w₃ w' a args x) :
    Executed config w.ledger w'.ledger a.toEnvelope x.d x.after a.spendAuthority.key
      (x.settlement.terms args) x.settlement.post (a.engineWritable x.intent.opaqueDescriptors) where
  bound := h.accounts.bound
  profiled := h.accounts.profiled
  distinct := h.accounts.tokenKeys_nodup
  engineForeign := h.intent.engine_foreign h.accounts
  fee := by
    rw [← h.accounts.bound.feeBps]
    exact (congrArg UInt64.toNat h.settlement.protocolFee).trans h.intent.fee
  postA := h.settlement.postA
  postB := h.settlement.postB
  postFeeA := h.settlement.postFeeA
  phases := by
    refine ⟨w₁.ledger, w₂.ledger, w₃.ledger, h.primary.called.confined_engine, h.settled, ?_,
      h.stored⟩
    rcases h.committed with ⟨-, rfl⟩ | ⟨-, _, _, _, hc⟩
    · exact .refl _
    · exact hc.accepted.called.confined_engine

/-- The source had a delegate, so it was nobody's vault. -/
theorem source_delegated (h : CallbackAuthenticated env w w₁ w₂ w₃ w' a args x) :
    x.d.userSourceA.delegate ≠ none := by
  rw [h.intent.source.delegate]
  simp

end CallbackAuthenticated

end Execution

end ProgrammableSolana.Routed
