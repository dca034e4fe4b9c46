import ProgrammableSolana.Core.Delegation
import ProgrammableSolana.Routed.Completeness

/-! The two timing modes on one market: an execution goes through in the one exactly if it does in
the other, and comes to the same. -/
namespace ProgrammableSolana.Routed

open ProgrammableSolana.Lib ProgrammableSolana.Solana ProgrammableSolana.Core
open ProgrammableSolana.Engines
open ProgrammableSolana.Wire.Routed (timingSingle timingPrepareCommit phaseTransition phasePrepare
  phaseCommit)

namespace ExecuteCallbackAuthenticatedProbeV0

variable (a : ExecuteCallbackAuthenticatedProbeV0)

/-- The addresses derived for the intent. -/
def intentKeys : List Pubkey := [a.spendAuthority.key, a.primaryCallback.key, a.commitCallback.key]

/-- The fixed roles that are the same for every intent. -/
def sharedKeys : List Pubkey :=
  [a.market.key, a.domain.key, a.feeLedger.key, a.mintA.key, a.mintB.key, a.userSourceA.key,
    a.userDestinationB.key, a.vaultA.key, a.vaultB.key, a.feeVault.key, a.engineProgram.key,
    a.engineState.key, a.tokenProgram.key, ID]

/-- The accounts of an execution with other addresses derived for the intent. -/
def forIntent (spendAuthority primaryCallback commitCallback : Pubkey) :
    ExecuteCallbackAuthenticatedProbeV0 :=
  { a with
    spendAuthority := { a.spendAuthority with key := spendAuthority }
    primaryCallback := { a.primaryCallback with key := primaryCallback }
    commitCallback := { a.commitCallback with key := commitCallback } }

private theorem fixedEnvelopeKeys_perm : a.fixedEnvelopeKeys.Perm (a.intentKeys ++ a.sharedKeys) := by
  show ([a.market.key, a.domain.key, a.feeLedger.key, a.mintA.key, a.mintB.key, a.userSourceA.key,
    a.userDestinationB.key, a.vaultA.key, a.vaultB.key, a.feeVault.key, a.engineProgram.key,
    a.engineState.key] ++ (a.intentKeys ++ [a.tokenProgram.key, ID])).Perm _
  exact List.perm_append_comm_assoc _ _ _

private theorem mem_fixedEnvelopeKeys {k : Pubkey} :
    k ∈ a.fixedEnvelopeKeys ↔ k ∈ a.intentKeys ∨ k ∈ a.sharedKeys := by
  rw [a.fixedEnvelopeKeys_perm.mem_iff, List.mem_append]

end ExecuteCallbackAuthenticatedProbeV0

section Outcome

variable {d d' : EnvelopeData} {a a' : ExecuteCallbackAuthenticatedProbeV0}
  {args args' : ExecuteCallbackAuthenticatedProbeV0Args} {i i' : AuthenticatedIntent}
  {t t' : AcceptedSettlement} {amountOut : UInt64}

theorem SettlementOk.unique (h : SettlementOk d args i amountOut t)
    (h' : SettlementOk d' args' i' amountOut t') (hdomain : d'.domain = d.domain)
    (hledger : d'.feeLedger = d.feeLedger) (hin : args'.amountIn = args.amountIn)
    (hfee : i'.protocolFee = i.protocolFee) (htotal : i'.totalInputDebit = i.totalInputDebit) :
    t' = t := by
  have hprotocolFee : t'.protocolFee = t.protocolFee := by
    rw [h'.protocolFee, h.protocolFee, hfee]
  have hout : t'.amountOut = t.amountOut := by
    rw [h'.amountOut, h.amountOut]
  have hA : t'.postAccountedA = t.postAccountedA := by
    rw [← UInt64.toNat_inj, h'.postA, h.postA, hdomain, hin]
  have hB : t'.postAccountedB = t.postAccountedB := by
    have hpost := h.postB
    have hpost' := h'.postB
    rw [hdomain, hout] at hpost'
    rw [← UInt64.toNat_inj]
    omega
  have hF : t'.postAccountedFeeA = t.postAccountedFeeA := by
    rw [← UInt64.toNat_inj, h'.postFeeA, h.postFeeA, hledger, hprotocolFee]
  have hdebit : t'.totalInputDebit = t.totalInputDebit := by
    rw [h'.totalInputDebit, h.totalInputDebit, htotal]
  cases t
  cases t'
  simp only at hprotocolFee hout hA hB hF hdebit
  rw [hprotocolFee, hout, hA, hB, hF, hdebit]

end Outcome

section Twins

variable [Crypto]

/-- The digest of the intent an execution is submitted for. -/
def executionIntent (L : Ledger) (a : ExecuteCallbackAuthenticatedProbeV0)
    (args : ExecuteCallbackAuthenticatedProbeV0Args) : Result Hash := do
  let d ← loadExecute L a
  let charge ← chargeInput args.amountIn d.market.feeBps args.maxProtocolFee args.maxTotalInputDebit
  let opaqueDescriptors ← validateOpaqueCapabilities config
    (a.remainingAccounts.map (accountView L)) a.fixedEnvelopeKeys
  let authorizedCapabilityHash ← liftWire (.core .invalidWireEncoding)
    (Wire.Routed.computeCapabilityHash a.engineProgram.key
      (capabilityDescriptors L a.engineState opaqueDescriptors .authorized))
  let payloadHash ← liftWire (.core .invalidWireEncoding)
    (Wire.Routed.computePayloadHash args.opaquePayload)
  liftWire (.core .invalidWireEncoding) (Wire.Routed.computeIntentDigest
    (boundIntent a d args charge.protocolFee authorizedCapabilityHash payloadHash))

/-- The execution is submitted with the addresses derived for its intent. They hold no program, and
no other account of the execution is one of them: the intent names them all. -/
structure IntentAccounts (L : Ledger) (a : ExecuteCallbackAuthenticatedProbeV0)
    (args : ExecuteCallbackAuthenticatedProbeV0Args) : Prop where
  spend : ∀ intentDigest, executionIntent L a args = .ok intentDigest → ∃ bump,
    canonicalSpendAuthority a.userSourceA.key intentDigest = .ok (a.spendAuthority.key, bump)
  primary : ∀ intentDigest phase, executionIntent L a args = .ok intentDigest →
    primaryPhase args.timingMode = .ok phase → ∃ bump,
      canonicalCallback a intentDigest phase = .ok ⟨a.primaryCallback.key, bump⟩
  commit : ∀ intentDigest, executionIntent L a args = .ok intentDigest → ∃ bump,
    canonicalCallback a intentDigest phaseCommit = .ok ⟨a.commitCallback.key, bump⟩
  code : ∀ k ∈ a.intentKeys, (L k).executable = false
  distinct : a.intentKeys.Nodup
  unshared : ∀ k ∈ a.intentKeys, k ∉ a.sharedKeys
  unlisted : ∀ info ∈ a.remainingAccounts, info.key ∉ a.intentKeys

/-- Two ledgers, accounts and arguments that differ in the timing mode alone: the one that the state
`s` of the engine at `engineState` is for, the one the arguments name, and with it the intent, whose
spend authority the source is delegated to. -/
structure Twins (L L' : Ledger) (a a' : ExecuteCallbackAuthenticatedProbeV0)
    (args args' : ExecuteCallbackAuthenticatedProbeV0Args) (engineState : Pubkey)
    (s : RoutedPlan.EngineState) : Prop where
  sameAccounts : ∃ spend primary commit, a' = a.forIntent spend primary commit
  sameArgs : ∃ timingMode, args' = { args with timingMode }
  frame : ∀ k, k ≠ a.userSourceA.key → k ≠ engineState → L' k = L k
  source : ∃ owner executable, ∃ x : TokenAccount,
    L a.userSourceA.key =
      ⟨owner, executable, .token { x with delegate := some a.spendAuthority.key }⟩ ∧
    L' a.userSourceA.key =
      ⟨owner, executable, .token { x with delegate := some a'.spendAuthority.key }⟩
  state : ∃ executable,
    L engineState = ⟨RoutedPlan.ID, executable,
      .raw (RoutedPlan.EngineState.trySerialize { s with timingMode := args.timingMode })⟩ ∧
    L' engineState = ⟨RoutedPlan.ID, executable,
      .raw (RoutedPlan.EngineState.trySerialize { s with timingMode := args'.timingMode })⟩

namespace Twins

variable {L L' : Ledger} {a a' : ExecuteCallbackAuthenticatedProbeV0}
  {args args' : ExecuteCallbackAuthenticatedProbeV0Args} {engineState : Pubkey}
  {s : RoutedPlan.EngineState}

omit [Crypto] in
theorem symm (h : Twins L L' a a' args args' engineState s) :
    Twins L' L a' a args' args engineState s := by
  obtain ⟨spend, primary, commit, hac⟩ := h.sameAccounts
  obtain ⟨timingMode, hargs⟩ := h.sameArgs
  have hsource : a'.userSourceA = a.userSourceA := by
    rw [hac]
    rfl
  obtain ⟨owner, code, x, hs, hs'⟩ := h.source
  obtain ⟨code', hst, hst'⟩ := h.state
  constructor
  · refine ⟨a.spendAuthority.key, a.primaryCallback.key, a.commitCallback.key, ?_⟩
    rw [hac]
    rfl
  · refine ⟨args.timingMode, ?_⟩
    rw [hargs]
  · intro k hk hk'
    rw [hsource] at hk
    exact (h.frame k hk hk').symm
  · rw [hsource]
    exact ⟨owner, code, x, hs', hs⟩
  · exact ⟨code', hst', hst⟩

omit [Crypto] in
theorem sameOwnership (h : Twins L L' a a' args args' engineState s) : SameOwnership L L' := by
  obtain ⟨owner, code, x, hs, hs'⟩ := h.source
  obtain ⟨code', hst, hst'⟩ := h.state
  have hkey : ∀ k, (L' k).owner = (L k).owner ∧ (L' k).executable = (L k).executable := by
    intro k
    by_cases hsource : k = a.userSourceA.key
    · rw [hsource, hs, hs']
      exact ⟨rfl, rfl⟩
    · by_cases hstate : k = engineState
      · rw [hstate, hst, hst']
        exact ⟨rfl, rfl⟩
      · rw [h.frame k hsource hstate]
        exact ⟨rfl, rfl⟩
  exact ⟨fun k => (hkey k).1, fun k => (hkey k).2⟩

omit [Crypto] in
/-- An account that is no token account and holds no bytes is the same in both ledgers. -/
theorem typed (h : Twins L L' a a' args args' engineState s) {k : Pubkey}
    (htoken : ∀ x, (L k).data ≠ .token x) (hraw : ∀ bytes, (L k).data ≠ .raw bytes) :
    L' k = L k := by
  obtain ⟨owner, code, x, hs, -⟩ := h.source
  obtain ⟨code', hst, -⟩ := h.state
  apply h.frame
  · intro heq
    rw [heq, hs] at htoken
    exact htoken _ rfl
  · intro heq
    rw [heq, hst] at hraw
    exact hraw _ rfl

omit [Crypto] in
theorem state? (h : Twins L L' a a' args args' engineState s) {programId k : Pubkey} {t : CoreState}
    (ht : L.state? programId k = some t) : L'.state? programId k = some t := by
  have hdata := (Ledger.state?_eq_some.mp ht).2
  have hsame : L' k = L k := h.typed (by simp [hdata]) (by simp [hdata])
  rw [Ledger.state?_congr hsame, ht]

omit [Crypto] in
theorem mint? (h : Twins L L' a a' args args' engineState s) {k : Pubkey} {t : Mint}
    (ht : L.mint? k = some t) : L'.mint? k = some t := by
  have hdata := (Ledger.mint?_eq_some.mp ht).2
  have hsame : L' k = L k := h.typed (by simp [hdata]) (by simp [hdata])
  rw [Ledger.mint?_congr hsame, ht]

omit [Crypto] in
theorem token? (h : Twins L L' a a' args args' engineState s) {k : Pubkey} {t : TokenAccount}
    (ht : L.token? k = some t) (hk : k ≠ a.userSourceA.key) : L'.token? k = some t := by
  have hdata := (Ledger.token?_eq_some.mp ht).2
  obtain ⟨code, hst, -⟩ := h.state
  have hstate : k ≠ engineState := by
    intro heq
    rw [heq, hst] at hdata
    cases hdata
  rw [Ledger.token?_congr (h.frame k hk hstate), ht]

omit [Crypto] in
private theorem source? (h : Twins L L' a a' args args' engineState s) {t : TokenAccount}
    (ht : L.token? a.userSourceA.key = some t) :
    L'.token? a.userSourceA.key = some { t with delegate := some a'.spendAuthority.key } := by
  obtain ⟨howner, hdata⟩ := Ledger.token?_eq_some.mp ht
  obtain ⟨owner, code, x, hs, hs'⟩ := h.source
  rw [hs] at howner hdata
  cases hdata
  rw [Ledger.token?_eq_some, hs']
  exact ⟨howner, rfl⟩

theorem loads (h : Twins L L' a a' args args' engineState s) {d : EnvelopeData}
    (hload : loadExecute L a = .ok d) (hdistinct : a.toEnvelope.tokenKeys.Nodup) :
    loadExecute L' a' = .ok (redelegated d a'.spendAuthority.key) := by
  have hsame := h.sameOwnership
  have hapart : ∀ k ∈ [a.userDestinationB.key, a.vaultA.key, a.vaultB.key, a.feeVault.key],
      k ≠ a.userSourceA.key := by
    intro k hk heq
    rw [heq] at hk
    exact (List.nodup_cons.mp hdistinct).1 hk
  have henvelope : a'.toEnvelope = a.toEnvelope := by
    obtain ⟨spend, primary, commit, rfl⟩ := h.sameAccounts
    rfl
  unfold loadExecute at hload ⊢
  simp only [except_bind_ok_iff, except_pure_ok_iff, henvelope] at hload ⊢
  obtain ⟨d, hload, _, hconstrain, rfl⟩ := hload
  refine ⟨redelegated d a'.spendAuthority.key, ?_, (), ?_, rfl⟩
  · simp only [loadEnvelope, except_bind_ok_iff, loadMarket_ok_iff config.ID_ne_system,
      loadDomain_ok_iff config.ID_ne_system, loadFeeLedger_ok_iff config.ID_ne_system,
      loadMintAccount_ok_iff, loadTokenAccount_ok_iff, loadTokenProgram, require_ok_iff,
      except_pure_ok_iff] at hload ⊢
    obtain ⟨_, hm, _, hd, _, hf, _, hma, _, hmb, _, hs, _, ht, _, hva, _, hvb, _, hfv, _,
      ⟨_, hkey, hexec⟩, rfl⟩ := hload
    exact ⟨_, h.state? hm, _, h.state? hd, _, h.state? hf, _, h.mint? hma, _, h.mint? hmb, _,
      h.source? hs, _, h.token? ht (hapart _ (by simp)), _, h.token? hva (hapart _ (by simp)), _,
      h.token? hvb (hapart _ (by simp)), _, h.token? hfv (hapart _ (by simp)), (),
      ⟨(), hkey, (hsame.executable _).trans hexec⟩, rfl⟩
  · unfold constrainEnvelope at hconstrain ⊢
    rw [hsame.owner]
    exact hconstrain

theorem distinct (h : Twins L L' a a' args args' engineState s) (hacc : IntentAccounts L' a' args')
    (hdistinct : a.fixedEnvelopeKeys.Nodup) : a'.fixedEnvelopeKeys.Nodup := by
  have hshared : a'.sharedKeys = a.sharedKeys := by
    obtain ⟨spend, primary, commit, rfl⟩ := h.sameAccounts
    rfl
  rw [a.fixedEnvelopeKeys_perm.nodup_iff, List.nodup_append] at hdistinct
  rw [a'.fixedEnvelopeKeys_perm.nodup_iff, List.nodup_append]
  refine ⟨hacc.distinct, hshared ▸ hdistinct.2.1, ?_⟩
  intro k hk k' hk' heq
  rw [heq] at hk
  exact hacc.unshared k' hk hk'

theorem validates (h : Twins L L' a a' args args' engineState s) (hacc : IntentAccounts L' a' args')
    {env : Env config} {d : EnvelopeData} {phase phase' : UInt8}
    (hphase : primaryPhase args'.timingMode = .ok phase')
    (hvalid : validateAccounts env L a d args = .ok phase) :
    validateAccounts env L' a' (redelegated d a'.spendAuthority.key) args' = .ok phase' := by
  have hsame := h.sameOwnership
  have hspend := hacc.code a'.spendAuthority.key (by
    simp [ExecuteCallbackAuthenticatedProbeV0.intentKeys])
  have hprimary := hacc.code a'.primaryCallback.key (by
    simp [ExecuteCallbackAuthenticatedProbeV0.intentKeys])
  have hcommit := hacc.code a'.commitCallback.key (by
    simp [ExecuteCallbackAuthenticatedProbeV0.intentKeys])
  simp only [validateAccounts, validateExecutionEnvelope, except_bind_ok_iff, require_ok_iff,
    ensureDistinctRoles_ok_iff, except_pure_ok_iff] at hvalid ⊢
  obtain ⟨_, hpayload, _, -, _, hin, _, hslot, _, hroles, _, ⟨_, hbind, _, hreadonly, _, hstate, _,
    hsigners, _, -, _, -, hprofile⟩, -⟩ := hvalid
  have hroles' := h.distinct hacc hroles
  have hbinds : bindEnvelope config L' a.toEnvelope (redelegated d a'.spendAuthority.key) =
      bindEnvelope config L a.toEnvelope d := by
    unfold bindEnvelope
    rw [hsame.owner, hsame.executable, hsame.executable]
    rfl
  obtain ⟨timingMode, rfl⟩ := h.sameArgs
  obtain ⟨spend, primary, commit, rfl⟩ := h.sameAccounts
  exact ⟨(), hpayload, phase', hphase, (), hin, (), hslot, (), hroles', (),
    ⟨(), hbinds.trans hbind, (), hreadonly, (), hstate, (), hsigners, (), hspend, (),
      ⟨hprimary, hcommit⟩, hprofile⟩, rfl⟩

private theorem authenticates (h : Twins L L' a a' args args' engineState s)
    (hacc : IntentAccounts L' a' args') {env : Env config} {d : EnvelopeData} {phase phase' : UInt8}
    {i : AuthenticatedIntent} (hphase : primaryPhase args'.timingMode = .ok phase')
    (hload' : loadExecute L' a' = .ok (redelegated d a'.spendAuthority.key))
    (hvalid : validateAccounts env L a d args = .ok phase)
    (hintent : authenticateIntent L a d args phase = .ok i) :
    ∃ i', authenticateIntent L' a' (redelegated d a'.spendAuthority.key) args' phase' = .ok i' := by
  have hterms := (validateAccounts_ok hload' (h.validates hacc hphase hvalid)).2
  have hsame := h.sameOwnership
  have hviews := accountViews_congr hsame a.remainingAccounts
  have hcode := hacc.code
  simp only [ExecuteCallbackAuthenticatedProbeV0.intentKeys, List.mem_cons, List.not_mem_nil,
    or_false, forall_eq_or_imp, forall_eq] at hcode
  simp only [authenticateIntent, validateCallbackAccount, liftWire_ok_iff, except_bind_ok_iff,
    require_ok_iff, except_pure_ok_iff, validateDelegatedSpendSource_ok_iff,
    Prod.exists] at hintent ⊢
  obtain ⟨charge, hcharge, _, hheld, _, hliquid, ds, hds, capability, hcapability, _, hexpected,
    payload, hpayload, _, -, _, _, -, _, -, _, hsource, _, -, _, -, _, ⟨_, -, hprimaryInfo⟩, _,
    ⟨_, -, hcommitInfo⟩, -⟩ := hintent
  have hadmitted := (validateOpaqueCapabilities_ok hds).2
  obtain ⟨timingMode, rfl⟩ := h.sameArgs
  obtain ⟨spend, primary, commit, rfl⟩ := h.sameAccounts
  have hunlisted : ∀ account ∈ a.remainingAccounts.map (accountView L),
      account.key ∉ (a.forIntent spend primary commit).fixedEnvelopeKeys := by
    intro account haccount
    rw [ExecuteCallbackAuthenticatedProbeV0.mem_fixedEnvelopeKeys, not_or]
    constructor
    · obtain ⟨info, hinfo, rfl⟩ := List.mem_map.mp haccount
      exact hacc.unlisted info hinfo
    · obtain ⟨descriptor, -, hd⟩ := exists_of_forall₂_mem hadmitted.flip haccount
      intro hmem
      exact hd.notFixed (a.mem_fixedEnvelopeKeys.mpr (.inr hmem))
  have hds' := validateOpaqueCapabilities_fixed hds hunlisted
  rw [← hviews] at hds'
  rw [← capabilityDescriptors_congr hsame] at hcapability
  obtain ⟨digest, hdigest⟩ := Wire.Routed.computeIntentDigest_succeeds (b := boundIntent
    (a.forIntent spend primary commit) (redelegated d spend) { args with timingMode }
      charge.protocolFee capability payload) (timingMode_of_phase hterms)
  have hexecution : executionIntent L' (a.forIntent spend primary commit)
      { args with timingMode } = .ok digest := by
    simp only [executionIntent, except_bind_ok_iff, liftWire_ok_iff]
    exact ⟨_, hload', charge, hcharge, ds, hds', capability, hcapability, payload, hpayload,
      hdigest⟩
  obtain ⟨spendBump, hspend⟩ := hacc.spend digest hexecution
  obtain ⟨primaryBump, hprimary⟩ := hacc.primary digest phase' hexecution hphase
  obtain ⟨commitBump, hcommit⟩ := hacc.commit digest hexecution
  refine ⟨_, charge, hcharge, (), hheld, (), hliquid, ds, hds', capability, hcapability, (),
    hexpected, payload, hpayload, digest, hdigest, _, spendBump, hspend, (), rfl, (), ?_, _,
    hprimary, _, hcommit, (), ⟨(), rfl, hprimaryInfo.1, hprimaryInfo.2.1, hcode.2.1⟩, (),
    ⟨(), rfl, hcommitInfo.1, hcommitInfo.2.1, hcode.2.2⟩, rfl⟩
  exact ⟨hsource.state, hsource.isNative, hsource.mint, rfl, hsource.delegatedAmount,
    hsource.closeAuthority⟩

/-- What passes the checks in the one timing mode passes them in the other. -/
theorem prepares (h : Twins L L' a a' args args' engineState s)
    (hacc : IntentAccounts L' a' args') {env : Env config} {phase' : UInt8} {p : PreparedExecution}
    (hphase : primaryPhase args'.timingMode = .ok phase')
    (hp : prepareExecution env L a args = .ok p) :
    ∃ p', prepareExecution env L' a' args' = .ok p' ∧
      p'.d = redelegated p.d a'.spendAuthority.key := by
  have hdistinct := (prepared_ok hp).ready.accounts.tokenKeys_nodup
  simp only [prepareExecution, except_bind_ok_iff, except_pure_ok_iff] at hp
  obtain ⟨d, hload, phase, hvalid, i, hintent, _, -, rfl⟩ := hp
  have hload' := h.loads hload hdistinct
  have hvalid' := h.validates hacc hphase hvalid
  obtain ⟨i', hintent'⟩ := h.authenticates hacc hphase hload' hvalid hintent
  obtain ⟨capability, request, -, hprepare, -⟩ := prepareExecution_succeeds hload' hvalid' hintent'
  exact ⟨_, hprepare, rfl⟩

end Twins

/-- The engine of the market is the reference engine in `MODE_ACCEPT`, in the timing mode the
execution names; the execution has the accounts of its intent and its settlement a digest that can
be committed. -/
structure Installed (env : Env config) (w : Core.World) (a : ExecuteCallbackAuthenticatedProbeV0)
    (args : ExecuteCallbackAuthenticatedProbeV0Args) (helper : Callee CoreState config.ID)
    (m : MarketV0) (s : RoutedPlan.EngineState) : Prop where
  market : w.ledger.state? config.ID a.market.key = some (.market m)
  program : m.engineProgram = RoutedPlan.ID
  mode : s.mode = RoutedPlan.modeAccept
  callee : env.callee = RoutedPlan.respond helper
  payload : args.opaquePayload.head? ≠ some helperPayloadTag
  supplyA : totalBalance w.ledger m.mintA < 2 ^ 64
  supplyB : totalBalance w.ledger m.mintB < 2 ^ 64
  digest : ((reachSettlement env a args).run w).1 ≠ .ok (Bytes.zero 32)
  accounts : IntentAccounts w.ledger a args

variable {env : Env config} {w w' v v' : Core.World} {a a' : ExecuteCallbackAuthenticatedProbeV0}
  {args args' : ExecuteCallbackAuthenticatedProbeV0Args} {helper : Callee CoreState config.ID}
  {m : MarketV0} {s : RoutedPlan.EngineState}

theorem CallbackAuthenticated.sequence_fits {w₁ w₂ w₃ : Core.World} {x : Stages}
    (h : CallbackAuthenticated env w w₁ w₂ w₃ w' a args x) :
    args.expectedEngineSequence.toNat + 1 < 2 ^ 64 := by
  have hprimary := h.sequence
  unfold SequenceOk at hprimary
  rcases primaryPhase_ok h.terms.phase with ⟨-, hp⟩ | ⟨htiming, hp⟩
  · have hfirst := x.receipt.stateSequence.toNat_lt
    rw [hp, if_neg (by decide)] at hprimary
    omega
  · rw [hp, if_pos rfl] at hprimary
    rcases h.committed with ⟨hsingle, -⟩ | ⟨-, request, receipt, c, hc⟩
    · rw [hsingle] at htiming
      exact absurd htiming (by decide)
    · have hsecond := receipt.stateSequence.toNat_lt
      have hnext := hc.sequence
      omega

/-- An execution that goes through found the engine ready for it. -/
theorem Installed.hosted (h : Installed env w a args helper m s)
    (hloaded : RoutedPlan.loadEngineState w.ledger m.engineState = .ok s)
    (htiming : s.timingMode = args.timingMode)
    (hrun : (handleExecuteCallbackAuthenticatedProbeV0 env a args).run w = (.ok (), v)) :
    Hosted env w a args helper m s := by
  obtain ⟨w₁, w₂, w₃, x, hx⟩ := execute_ok hrun
  obtain ⟨c, cs, hcalls, hanswered⟩ := execute_answered hrun
  obtain ⟨cs', hcalls'⟩ := hx.calls
  have hcall : c = x.call := by
    rw [hcalls, List.append_cancel_left_eq, List.cons.injEq] at hcalls'
    exact hcalls'.1
  have hm : x.d.market = m := by
    have hmarket := hx.accounts.bound.market
    rw [h.market, Option.some.injEq, CoreState.market.injEq] at hmarket
    exact hmarket.symm
  have hstate : RoutedPlan.loadEngineState w.ledger a.engineState.key = .ok s := by
    rw [hx.accounts.bound.engineState, hm, hloaded]
  obtain ⟨response, hresponse, -⟩ := hanswered c List.mem_cons_self
  obtain ⟨engineState, callbackAuthority, opaqueAccounts, hpresented, hkey, -⟩ :=
    hx.primary.called.presented
  rw [hcall, hx.primary.called.before, h.callee] at hresponse
  have haccept : ∀ s', RoutedPlan.loadEngineState w.ledger engineState.key = .ok s' →
      s'.mode = RoutedPlan.modeAccept := by
    intro s' hs'
    rw [hkey, hstate, Except.ok.injEq] at hs'
    rw [← hs', h.mode]
  obtain ⟨s', q, next, data, e, hev, -⟩ :=
    RoutedPlan.respond_accept hresponse hpresented hx.primary.called.data haccept
  have hauthenticated := hev.authenticated
  have hs' : s' = s := by
    have hloaded' := hauthenticated.loaded
    rw [hkey, hstate, Except.ok.injEq] at hloaded'
    exact hloaded'.symm
  obtain ⟨capability, hrequest⟩ := hx.primary.requested
  have hsequence : s.sequence = args.expectedEngineSequence := by
    rw [← hs', hauthenticated.sequence, hrequest.preSequence]
  have hfits := hx.sequence_fits
  rw [← hsequence] at hfits
  constructor
  · exact h.market
  · exact h.program
  · exact hloaded
  · rw [← hs', hauthenticated.market, hrequest.market]
  · rw [← hs', hauthenticated.revision, hrequest.engineRevision, hm]
  · exact htiming
  · exact h.mode
  · exact hsequence
  · exact hfits
  · exact h.callee
  · exact h.payload
  · exact h.supplyA
  · exact h.supplyB
  · exact h.digest

theorem IntentOk.same_charge {L L' : Ledger} {d d' : EnvelopeData} {phase phase' : UInt8}
    {i i' : AuthenticatedIntent} (h : IntentOk L a d args phase i)
    (h' : IntentOk L' a' d' args' phase' i') (hmarket : d'.market = d.market)
    (hin : args'.amountIn = args.amountIn) :
    i'.protocolFee = i.protocolFee ∧ i'.totalInputDebit = i.totalInputDebit := by
  have hfee : i'.protocolFee = i.protocolFee := by
    rw [← UInt64.toNat_inj, h'.fee, h.fee, hmarket, hin]
  refine ⟨hfee, ?_⟩
  rw [← UInt64.toNat_inj, h'.total, h.total, hfee, hin]

/-- Twin executions that settle the same output leave the same ledger, but for the engine. -/
theorem QuoteSettled.agree {L L' M M' : Ledger} {p p' : PreparedExecution}
    {t t' : AcceptedSettlement} {after after' : EnvelopeData} {amountOut : UInt64}
    {s₁ s₂ : RoutedPlan.EngineState}
    (h : QuoteSettled L M a args p s₁ amountOut t after)
    (h' : QuoteSettled L' M' a' args' p' s₂ amountOut t' after')
    (htwins : Twins L L' a a' args args' a.engineState.key s)
    (hp : PreparedOk env L a args p) (hp' : PreparedOk env L' a' args' p')
    (hd : p'.d = redelegated p.d a'.spendAuthority.key) {k : Pubkey}
    (hk : k ≠ a.engineState.key) : M' k = M k := by
  have ha := hp.ready.accounts
  have hin : args'.amountIn = args.amountIn := by
    obtain ⟨timingMode, rfl⟩ := htwins.sameArgs
    rfl
  have henvelope : a'.toEnvelope = a.toEnvelope := by
    obtain ⟨spend, primary, commit, rfl⟩ := htwins.sameAccounts
    rfl
  have hstate : a'.engineState = a.engineState := by
    rw [henvelope]
  obtain ⟨hfee, htotal⟩ := hp.intent.same_charge hp'.intent (by rw [hd]; rfl) hin
  have hsettlement : t' = t := h.accepted.unique h'.accepted (by rw [hd]; rfl) (by rw [hd]; rfl) hin
    hfee htotal
  have hterms : t'.terms args' = t.terms args := by
    unfold AcceptedSettlement.terms
    rw [hsettlement, hin]
  obtain ⟨L₁, L₂, L₃, hL₁, hsettled, hsame₂, hL₃, hM⟩ := h.phases
  obtain ⟨L₁', L₂', L₃', hL₁', hsettled', hsame₂', hL₃', hM'⟩ := h'.phases
  rw [hterms, henvelope, hd] at hsettled'
  rw [hstate] at hL₁' hL₃'
  have htokens := hsettled.redelegated hsettled' ha.profiled h.cleared h'.cleared
  have hfirst : L₁' k = L' k ∧ L₁ k = L k := ⟨hL₁' k hk, hL₁ k hk⟩
  have hsecond : L₂' k = L₂ k := by
    by_cases htoken : k ∈ a.toEnvelope.tokenKeys
    · apply hsettled.tokens.agree htokens _ htoken
      intro key hkey
      have hne : key ≠ a.engineState.key := by
        intro heq
        rw [heq] at hkey
        exact (engineState_untouched ha).1 hkey
      rw [hsame₂'.executable, hsame₂.executable, hL₁' key hne, hL₁ key hne,
        htwins.sameOwnership.executable]
    · have hsource : k ≠ a.userSourceA.key := by
        intro heq
        rw [heq] at htoken
        exact htoken List.mem_cons_self
      rw [hsettled'.frame k htoken, hsettled.frame k htoken, hfirst.1, hfirst.2,
        htwins.frame k hsource hk]
  rw [hM', hM, henvelope, hsettlement]
  apply accountedLedger_congr
  · rw [hd]
    rfl
  · rw [hd]
    rfl
  · rw [hL₃' k hk, hL₃ k hk, hsecond]

/-- What is left of an execution in both of two runs: the same ledger but for the state of the
engine, where sequence and last output agree, a source without a delegate, and an event with the
same output. -/
structure Alike (engineState source : Pubkey) (w v w' v' : Core.World) : Prop where
  ledger : ∀ k, k ≠ engineState → v'.ledger k = v.ledger k
  source : ∃ x, v.ledger.token? source = some x ∧ v'.ledger.token? source = some x ∧
    x.delegate = none ∧ x.delegatedAmount = 0
  state : ∃ t t', RoutedPlan.loadEngineState v.ledger engineState = .ok t ∧
    RoutedPlan.loadEngineState v'.ledger engineState = .ok t' ∧ t'.sequence = t.sequence ∧
    t'.lastAmountOut = t.lastAmountOut
  amountOut : ∃ e e' : CallbackAuthenticatedProbeExecutedV0,
    emittedEvents v.log = emittedEvents w.log ++ [.callbackAuthenticatedProbeExecuted e] ∧
    emittedEvents v'.log = emittedEvents w'.log ++ [.callbackAuthenticatedProbeExecuted e'] ∧
    e'.amountOut = e.amountOut

omit [Crypto] in
theorem Twins.loaded {L L' : Ledger} {engineState : Pubkey}
    (h : Twins L L' a a' args args' engineState s) :
    RoutedPlan.loadEngineState L engineState =
      .ok { s with timingMode := args.timingMode } := by
  obtain ⟨code, hstored, -⟩ := h.state
  exact RoutedPlan.loadEngineState_stored hstored

theorem Hosted.emits (hh : Hosted env w a args helper m s) {p : PreparedExecution} {q : CpmmQuote}
    (hp : prepareExecution env w.ledger a args = .ok p)
    (hq : RoutedPlan.quoteExactIn p.d.domain.accountedA p.d.domain.accountedB args.amountIn
      s.lpFeeBps = .ok q)
    (hrun : (handleExecuteCallbackAuthenticatedProbeV0 env a args).run w = (.ok (), v)) :
    ∃ e : CallbackAuthenticatedProbeExecutedV0,
      emittedEvents v.log = emittedEvents w.log ++ [.callbackAuthenticatedProbeExecuted e] ∧
      e.amountOut = q.amountOut := by
  obtain ⟨w₁, w₂, w₃, x, q', hx, hq', hout⟩ := hh.settles hrun
  obtain ⟨e, he, -, -, -, -, -, hamount⟩ := hx.emittedEvents_eq
  obtain ⟨capability, hprepared⟩ := hx.prepared
  rw [hprepared, Except.ok.injEq] at hp
  rw [← hp, hq', Except.ok.injEq] at hq
  exact ⟨e, he, by rw [hamount, hout, hq]⟩

private theorem source_cleared
    (hrun : (handleExecuteCallbackAuthenticatedProbeV0 env a args).run w = (.ok (), v)) :
    ∃ x, v.ledger.token? a.userSourceA.key = some x ∧ x.delegate = none ∧
      x.delegatedAmount = 0 := by
  obtain ⟨w₁, w₂, w₃, x, hx⟩ := execute_ok hrun
  exact ⟨x.after.userSourceA, hx.executed.tokens.userSourceA, hx.cleared⟩

/-- If the one of two twin executions goes through, so does the other, and it comes to the same. -/
theorem Twins.goes_through {phase' : UInt8}
    (htwins : Twins w.ledger w'.ledger a a' args args' m.engineState s)
    (h : Installed env w a args helper m { s with timingMode := args.timingMode })
    (h' : Installed env w' a' args' helper m { s with timingMode := args'.timingMode })
    (hphase : primaryPhase args'.timingMode = .ok phase')
    (hrun : (handleExecuteCallbackAuthenticatedProbeV0 env a args).run w = (.ok (), v)) :
    ∃ v', (handleExecuteCallbackAuthenticatedProbeV0 env a' args').run w' = (.ok (), v') ∧
      Alike m.engineState a.userSourceA.key w v w' v' := by
  have hh := h.hosted htwins.loaded rfl hrun
  rcases hosted_cases hh with ⟨p, q, v₁, t, after, hp, hq, hmin, hrun₁, hsettled⟩ |
    ⟨err, v₁, -, herr⟩
  swap
  · rw [hrun] at herr
    cases herr
  have hv : v₁ = v := by
    rw [hrun, Prod.mk.injEq] at hrun₁
    exact hrun₁.2.symm
  subst hv
  obtain ⟨p', hp', hd⟩ := htwins.prepares h'.accounts hphase hp
  have hok := prepared_ok hp
  have hkey : a.engineState.key = m.engineState := by
    rw [hok.ready.accounts.bound.engineState, hok.market hh]
  have hh' : Hosted env w' a' args' helper m { s with timingMode := args'.timingMode } := by
    have hmarket := hh.stateMarket
    have hsequence := hh.sequence
    obtain ⟨timingMode, rfl⟩ := htwins.sameArgs
    obtain ⟨spend, primary, commit, rfl⟩ := htwins.sameAccounts
    exact ⟨h'.market, h'.program, htwins.symm.loaded, hmarket, hh.revision, rfl, h'.mode, hsequence,
      hh.fits, h'.callee, h'.payload, h'.supplyA, h'.supplyB, h'.digest⟩
  have hq' : RoutedPlan.quoteExactIn p'.d.domain.accountedA p'.d.domain.accountedB args'.amountIn
      s.lpFeeBps = .ok q := by
    obtain ⟨timingMode, rfl⟩ := htwins.sameArgs
    rw [hd]
    exact hq
  have hmin' : args'.minOutputCredit ≤ q.amountOut := by
    obtain ⟨timingMode, rfl⟩ := htwins.sameArgs
    exact hmin
  obtain ⟨v', t', after', hrun', hsettled'⟩ := prepared_succeeds hp' hh' hq' hmin'
  rw [← hkey] at htwins
  have hledger : ∀ k, k ≠ a.engineState.key → v'.ledger k = v₁.ledger k := fun k hk =>
    hsettled.agree hsettled' htwins hok (prepared_ok hp') hd hk
  refine ⟨v', hrun', ?_⟩
  rw [← hkey]
  constructor
  · exact hledger
  · obtain ⟨x, hx, hcleared⟩ := source_cleared hrun
    have hsource : a.userSourceA.key ≠ a.engineState.key := by
      intro heq
      apply (engineState_untouched hok.ready.accounts).1
      rw [← heq]
      exact List.mem_cons_self
    have hx' : v'.ledger.token? a.userSourceA.key = some x := by
      rw [Ledger.token?_congr (hledger _ hsource), hx]
    exact ⟨x, hx, hx', hcleared⟩
  · obtain ⟨request, hnext⟩ := hsettled.state
    obtain ⟨request', hnext'⟩ := hsettled'.state
    have hstate : a'.engineState.key = a.engineState.key := by
      obtain ⟨spend, primary, commit, rfl⟩ := htwins.sameAccounts
      rfl
    rw [hstate] at hnext'
    exact ⟨_, _, hnext, hnext', rfl, rfl⟩
  · obtain ⟨e, he, hout⟩ := hh.emits hp hq hrun
    obtain ⟨e', he', hout'⟩ := hh'.emits hp' hq' hrun'
    exact ⟨e, e', he, he', by rw [hout', hout]⟩

end Twins

/-- On the reference engine the timing mode makes no difference to the economics: of two executions
that differ in it alone, the one goes through exactly if the other does, and then both leave the
same balances, delegate, accounted fields and output. -/
theorem single_iff_prepareCommit [Crypto] (env : Env config) (w w' : Core.World)
    (a a' : ExecuteCallbackAuthenticatedProbeV0)
    (args args' : ExecuteCallbackAuthenticatedProbeV0Args) (helper : Callee CoreState config.ID)
    (m : MarketV0) (s : RoutedPlan.EngineState)
    (htwins : Twins w.ledger w'.ledger a a' args args' m.engineState s)
    (hsingle : args.timingMode = timingSingle) (htwoPhase : args'.timingMode = timingPrepareCommit)
    (h : Installed env w a args helper m { s with timingMode := args.timingMode })
    (h' : Installed env w' a' args' helper m { s with timingMode := args'.timingMode }) :
    ((∃ v, (handleExecuteCallbackAuthenticatedProbeV0 env a args).run w = (.ok (), v)) ↔
      ∃ v', (handleExecuteCallbackAuthenticatedProbeV0 env a' args').run w' = (.ok (), v')) ∧
    ∀ v v', (handleExecuteCallbackAuthenticatedProbeV0 env a args).run w = (.ok (), v) →
      (handleExecuteCallbackAuthenticatedProbeV0 env a' args').run w' = (.ok (), v') →
      Alike m.engineState a.userSourceA.key w v w' v' := by
  have hphase : primaryPhase args.timingMode = .ok phaseTransition := by
    rw [hsingle]
    rfl
  have hphase' : primaryPhase args'.timingMode = .ok phasePrepare := by
    rw [htwoPhase]
    rfl
  refine ⟨⟨?_, ?_⟩, ?_⟩
  · rintro ⟨v, hrun⟩
    obtain ⟨v', hrun', -⟩ := htwins.goes_through h h' hphase' hrun
    exact ⟨v', hrun'⟩
  · rintro ⟨v', hrun'⟩
    obtain ⟨v, hrun, -⟩ := htwins.symm.goes_through h' h hphase hrun'
    exact ⟨v, hrun⟩
  · intro v v' hrun hrun'
    obtain ⟨v'', hrun'', halike⟩ := htwins.goes_through h h' hphase' hrun
    rw [hrun', Prod.mk.injEq] at hrun''
    rw [hrun''.2]
    exact halike

namespace Sample

open ProgrammableSolana.Core.Sample

attribute [local instance] crypto

private theorem sample_twins : Twins (live timingSingle 0 single) (live timingPrepareCommit 0 twoPhase)
    (execute single) (execute twoPhase) (executeArgs timingSingle single)
    (executeArgs timingPrepareCommit twoPhase) engineState engineStateBefore where
  sameAccounts := ⟨twoPhase.spend, twoPhase.primaryCallback, twoPhase.commitCallback, rfl⟩
  sameArgs := ⟨timingPrepareCommit, rfl⟩
  frame := by
    intro k hsource hstate
    have hsource' : (k == sourceA) = false := beq_eq_false_iff_ne.mpr hsource
    have hstate' : (k == engineState) = false := beq_eq_false_iff_ne.mpr hstate
    simp only [live, Ledger.ofList, List.lookup_cons, hsource', hstate']
  source := ⟨tokenProgram, false, { data.userSourceA with delegatedAmount := 101 }, rfl, rfl⟩
  state := ⟨false, rfl, rfl⟩

/-- The sample is submitted with the addresses of its intent, as far as the hashes agree. -/
theorem intentAccounts {timingMode phase : UInt8} {x : SampleDigests}
    (hphase : primaryPhase timingMode = .ok phase)
    (hintent : executionIntent (live timingMode 0 x) (execute x) (executeArgs timingMode x) =
      .ok x.intent)
    (hspend : canonicalSpendAuthority sourceA x.intent = .ok (x.spend, 255))
    (hprimary : findProgramAddress ((execute x).callbackSeeds x.intent phase) ID =
      some (x.primaryCallback, 255))
    (hcommit : findProgramAddress ((execute x).callbackSeeds x.intent phaseCommit) ID =
      some (x.commitCallback, 255))
    (hcode : ∀ k ∈ (execute x).intentKeys, (live timingMode 0 x k).executable = false)
    (hkeys : (execute x).intentKeys.Nodup ∧
      (∀ k ∈ (execute x).intentKeys, k ∉ (execute x).sharedKeys) ∧
      ∀ info ∈ (execute x).remainingAccounts, info.key ∉ (execute x).intentKeys) :
    IntentAccounts (live timingMode 0 x) (execute x) (executeArgs timingMode x) := by
  constructor
  · intro digest hdigest
    rw [hintent, Except.ok.injEq] at hdigest
    rw [← hdigest]
    exact ⟨255, hspend⟩
  · intro digest phase' hdigest hphase'
    rw [hintent, Except.ok.injEq] at hdigest
    have hsame : primaryPhase timingMode = .ok phase' := hphase'
    rw [hphase, Except.ok.injEq] at hsame
    rw [← hdigest, ← hsame]
    unfold canonicalCallback
    rw [hprimary]
    exact ⟨255, rfl⟩
  · intro digest hdigest
    rw [hintent, Except.ok.injEq] at hdigest
    rw [← hdigest]
    unfold canonicalCallback
    rw [hcommit]
    exact ⟨255, rfl⟩
  · exact hcode
  · exact hkeys.1
  · exact hkeys.2.1
  · exact hkeys.2.2

private theorem single_installed : Installed env (world (live timingSingle 0 single)) (execute single)
    (executeArgs timingSingle single) (fun _ _ => none) data.market
    { engineStateBefore with timingMode := timingSingle } where
  market := by decide +kernel
  program := rfl
  mode := rfl
  callee := rfl
  payload := by decide
  supplyA := by
    unfold live world
    rw [totalBalance_ofList (by decide +kernel)]
    decide +kernel
  supplyB := by
    unfold live world
    rw [totalBalance_ofList (by decide +kernel)]
    decide +kernel
  digest := by decide +kernel
  accounts := intentAccounts rfl (by decide +kernel) (by decide +kernel) (by decide +kernel)
    (by decide +kernel) (by decide +kernel) (by decide +kernel)

private theorem twoPhase_installed : Installed env (world (live timingPrepareCommit 0 twoPhase))
    (execute twoPhase) (executeArgs timingPrepareCommit twoPhase) (fun _ _ => none) data.market
    { engineStateBefore with timingMode := timingPrepareCommit } where
  market := hosted.market
  program := rfl
  mode := rfl
  callee := rfl
  payload := hosted.payload
  supplyA := hosted.supplyA
  supplyB := hosted.supplyB
  digest := hosted.digest
  accounts := intentAccounts rfl (by decide +kernel) (by decide +kernel) (by decide +kernel)
    (by decide +kernel) (by decide +kernel) (by decide +kernel)

theorem single_iff_prepareCommit_sample : ∃ v v',
    (handleExecuteCallbackAuthenticatedProbeV0 env (execute single)
      (executeArgs timingSingle single)).run (world (live timingSingle 0 single)) = (.ok (), v) ∧
    (handleExecuteCallbackAuthenticatedProbeV0 env (execute twoPhase)
      (executeArgs timingPrepareCommit twoPhase)).run
        (world (live timingPrepareCommit 0 twoPhase)) = (.ok (), v') ∧
    Alike engineState sourceA (world (live timingSingle 0 single)) v
      (world (live timingPrepareCommit 0 twoPhase)) v' := by
  have htwins : Twins (world (live timingSingle 0 single)).ledger
      (world (live timingPrepareCommit 0 twoPhase)).ledger _ _ _ _ data.market.engineState
      engineStateBefore := sample_twins
  have hrun : ((handleExecuteCallbackAuthenticatedProbeV0 env (execute single)
      (executeArgs timingSingle single)).run (world (live timingSingle 0 single))).1 = .ok () := by
    decide +kernel
  have h := single_installed
  have h' := twoPhase_installed
  have hsingle : (executeArgs timingSingle single).timingMode = timingSingle := rfl
  have htwoPhase : (executeArgs timingPrepareCommit twoPhase).timingMode = timingPrepareCommit :=
    rfl
  have hsource : (execute single).userSourceA.key = sourceA := rfl
  have hstate : data.market.engineState = engineState := rfl
  rw [← hsource, ← hstate]
  generalize world (live timingSingle 0 single) = w at htwins hrun h ⊢
  generalize world (live timingPrepareCommit 0 twoPhase) = w' at htwins h' ⊢
  generalize execute single = a at htwins hrun h ⊢
  generalize execute twoPhase = a' at htwins h' ⊢
  generalize hargs : executeArgs timingSingle single = args at htwins hrun h hsingle ⊢
  generalize hargs' : executeArgs timingPrepareCommit twoPhase = args' at htwins h' htwoPhase ⊢
  rw [← hsingle] at h
  rw [← htwoPhase] at h'
  obtain ⟨hiff, halike⟩ := single_iff_prepareCommit env w w' a a' args args' _ data.market
    engineStateBefore htwins hsingle htwoPhase h h'
  have hfirst := Exec.run_of_fst hrun
  obtain ⟨v', hsecond⟩ := hiff.mp ⟨_, hfirst⟩
  exact ⟨_, v', hfirst, hsecond, halike _ v' hfirst hsecond⟩

end Sample

end ProgrammableSolana.Routed
