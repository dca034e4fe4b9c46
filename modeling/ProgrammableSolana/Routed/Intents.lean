import ProgrammableSolana.Routed.Finality
import Mathlib.Data.Set.Function

/-! What executes is what was authorized: the digest in the spend authority's address ties the
intent a user signed to the terms an execution uses. -/
namespace ProgrammableSolana.Routed

open ProgrammableSolana.Lib ProgrammableSolana.Solana ProgrammableSolana.Core

section

variable [Crypto]

/-- What is hashed for the address that may spend from `source` for an intent. -/
def spendMessage (source : Pubkey) (intentDigest : Hash) (bump : UInt8) : List UInt8 :=
  [spendAuthoritySeedV0, source.toList, intentDigest.toList, [bump], ID.toList, pdaMarker].flatten

/-- Everything that is hashed between an intent and its spend authority. -/
def hashedFor (source : Pubkey) (b : Wire.Routed.IntentBinding) : Set (List UInt8) :=
  {m | (∃ encoded, Wire.Routed.encodeIntentBinding b = .ok encoded ∧
      m = Wire.Routed.intentHashDomain ++ encoded) ∨
    ∃ digest key bump, Wire.Routed.computeIntentDigest b = .ok digest ∧
      canonicalSpendAuthority source digest = .ok (key, bump) ∧
      m = spendMessage source digest bump}

private theorem canonicalSpendAuthority_eq {source key : Pubkey} {intentDigest : Hash} {bump : UInt8}
    (h : canonicalSpendAuthority source intentDigest = .ok (key, bump)) :
    key = Crypto.sha256 (spendMessage source intentDigest bump) := by
  unfold canonicalSpendAuthority at h
  rw [okOr_ok_iff] at h
  exact createProgramAddress_eq_hashv (createProgramAddress_of_find h)

omit [Crypto] in
private theorem spendMessage_injective {source : Pubkey} {digest digest' : Hash} {bump bump' : UInt8}
    (h : spendMessage source digest bump = spendMessage source digest' bump') :
    digest = digest' := by
  unfold spendMessage at h
  simp only [List.flatten_cons, List.append_cancel_left_eq] at h
  have hlen : digest.toList.length = digest'.toList.length := by
    rw [digest.length_toList, digest'.length_toList]
  exact Bytes.ext (List.append_inj_left h hlen)

theorem computeIntentDigest_ok {b : Wire.Routed.IntentBinding} {digest : Hash}
    (h : Wire.Routed.computeIntentDigest b = .ok digest) :
    ∃ encoded, Wire.Routed.encodeIntentBinding b = .ok encoded ∧
      digest = Crypto.sha256 (Wire.Routed.intentHashDomain ++ encoded) := by
  unfold Wire.Routed.computeIntentDigest hashv at h
  simp only [except_bind_ok_iff, except_pure_ok_iff, List.flatten_cons, List.flatten_nil,
    List.append_nil] at h
  obtain ⟨encoded, hencoded, rfl⟩ := h
  exact ⟨encoded, hencoded, rfl⟩

/-- Where SHA-256 does not collide, one spend authority belongs to one intent. -/
theorem intent_of_spendAuthority {source key : Pubkey} {b b' : Wire.Routed.IntentBinding}
    {digest digest' : Hash} {bump bump' : UInt8}
    (hb : Wire.Routed.computeIntentDigest b = .ok digest)
    (hb' : Wire.Routed.computeIntentDigest b' = .ok digest')
    (hkey : canonicalSpendAuthority source digest = .ok (key, bump))
    (hkey' : canonicalSpendAuthority source digest' = .ok (key, bump'))
    (hcollision : Set.InjOn Crypto.sha256 (hashedFor source b ∪ hashedFor source b')) : b = b' := by
  have hspend : spendMessage source digest bump = spendMessage source digest' bump' := by
    refine hcollision (.inl (.inr ⟨digest, key, bump, hb, hkey, rfl⟩))
      (.inr (.inr ⟨digest', key, bump', hb', hkey', rfl⟩)) ?_
    rw [← canonicalSpendAuthority_eq hkey, ← canonicalSpendAuthority_eq hkey']
  have hdigest : digest = digest' := spendMessage_injective hspend
  obtain ⟨encoded, hencoded, hhash⟩ := computeIntentDigest_ok hb
  obtain ⟨encoded', hencoded', hhash'⟩ := computeIntentDigest_ok hb'
  have hmessage : Wire.Routed.intentHashDomain ++ encoded =
      Wire.Routed.intentHashDomain ++ encoded' := by
    refine hcollision (.inl (.inl ⟨encoded, hencoded, rfl⟩))
      (.inr (.inl ⟨encoded', hencoded', rfl⟩)) ?_
    rw [← hhash, ← hhash', hdigest]
  rw [List.append_cancel_left_eq] at hmessage
  exact Wire.Routed.encodeIntentBinding_injective hencoded (hmessage ▸ hencoded')

/-- The two messages of one intent collide only if its spend authority is its digest. -/
theorem hashedFor_injOn {source key : Pubkey} {b : Wire.Routed.IntentBinding} {digest : Hash}
    {bump : UInt8} (hb : Wire.Routed.computeIntentDigest b = .ok digest)
    (hkey : canonicalSpendAuthority source digest = .ok (key, bump)) (hne : key ≠ digest) :
    Set.InjOn Crypto.sha256 (hashedFor source b) := by
  obtain ⟨encoded, hencoded, hhash⟩ := computeIntentDigest_ok hb
  have hspend := canonicalSpendAuthority_eq hkey
  have hcases : ∀ m ∈ hashedFor source b, m = Wire.Routed.intentHashDomain ++ encoded ∨
      m = spendMessage source digest bump := by
    rintro m (⟨encoded', hencoded', rfl⟩ | ⟨digest', key', bump', hb', hkey', rfl⟩)
    · obtain rfl : encoded' = encoded := Except.ok.inj (hencoded'.symm.trans hencoded)
      exact .inl rfl
    · obtain rfl : digest' = digest := Except.ok.inj (hb'.symm.trans hb)
      have hpair := Except.ok.inj (hkey'.symm.trans hkey)
      exact .inr (by rw [(Prod.mk.inj hpair).2])
  intro m hm m' hm' heq
  rcases hcases m hm with rfl | rfl <;> rcases hcases m' hm' with rfl | rfl
  · rfl
  · exact absurd (hspend.trans (heq.symm.trans hhash.symm)) hne
  · exact absurd (hspend.trans (heq.trans hhash.symm)) hne
  · rfl

/-- The intent an execution authenticates. -/
def PreparedExecution.binding (p : PreparedExecution) (a : ExecuteCallbackAuthenticatedProbeV0)
    (args : ExecuteCallbackAuthenticatedProbeV0Args) : Wire.Routed.IntentBinding :=
  boundIntent a p.d args p.intent.protocolFee p.intent.authorizedCapabilityHash
    p.intent.payloadHash

/-- An execution whose terms are those of an intent. -/
structure ExecutesIntent (env : Env config) (L L' : Ledger)
    (a : ExecuteCallbackAuthenticatedProbeV0) (args : ExecuteCallbackAuthenticatedProbeV0Args)
    (b : Wire.Routed.IntentBinding) : Prop where
  coreProgram : b.coreProgram = ID
  market : b.market = a.market.key
  domain : b.domain = a.domain.key
  engineProgram : b.engineProgram = a.engineProgram.key
  engineState : b.engineState = a.engineState.key
  userInput : b.userInput = a.userSourceA.key
  userOutput : b.userOutput = a.userDestinationB.key
  mintIn : b.mintIn = a.mintA.key
  mintOut : b.mintOut = a.mintB.key
  domainInputVault : b.domainInputVault = a.vaultA.key
  domainOutputVault : b.domainOutputVault = a.vaultB.key
  protocolFeeVault : b.protocolFeeVault = a.feeVault.key
  feeLedger : b.feeLedger = a.feeLedger.key
  tokenProgram : b.tokenProgram = a.tokenProgram.key
  terms : b.amountIn = args.amountIn ∧ b.maxTotalInputDebit = args.maxTotalInputDebit ∧
    b.minOutputCredit = args.minOutputCredit ∧ b.maxProtocolFee = args.maxProtocolFee ∧
    b.expiresAtSlot = args.expiresAtSlot ∧ b.authorizationNonce = args.authorizationNonce ∧
    b.timingMode = args.timingMode ∧ b.authorizedCapabilityHash = args.expectedCapabilityHash
  payload : Wire.Routed.computePayloadHash args.opaquePayload = .ok b.payloadHash
  revisions : ∃ m, L.state? ID a.market.key = some (.market m) ∧
    b.engineRevision = m.engineRevision ∧ b.feePolicyRevision = m.feePolicyRevision ∧
    b.protocolFee.toNat = ceilFee args.amountIn.toNat m.feeBps.toNat
  capabilities : ∃ descriptors : List Wire.CapabilityDescriptor,
    Wire.Routed.computeCapabilityHash a.engineProgram.key (capabilityDescriptors L a.engineState
      descriptors .authorized) = .ok b.authorizedCapabilityHash ∧
    List.Forall₂ (fun info d => Admitted config (a.remainingAccounts.map (accountView L))
      a.fixedEnvelopeKeys (accountView L info) d) a.remainingAccounts descriptors
  debited : ∃ t t', L.token? b.userInput = some t ∧ L'.token? b.userInput = some t' ∧
    b.userAuthority = t.owner ∧
    t'.amount.toNat + (b.amountIn.toNat + b.protocolFee.toNat) = t.amount.toNat
  maxDebit : b.amountIn.toNat + b.protocolFee.toNat ≤ b.maxTotalInputDebit.toNat
  credited : ∃ t t', L.token? b.userOutput = some t ∧ L'.token? b.userOutput = some t' ∧
    t.amount.toNat + b.minOutputCredit.toNat ≤ t'.amount.toNat
  slot : env.slot ≤ b.expiresAtSlot

theorem CallbackAuthenticated.executesIntent {env : Env config} {w w₁ w₂ w₃ w' : Core.World}
    {a : ExecuteCallbackAuthenticatedProbeV0} {args : ExecuteCallbackAuthenticatedProbeV0Args}
    {x : Stages} (h : CallbackAuthenticated env w w₁ w₂ w₃ w' a args x) :
    ExecutesIntent env w.ledger w'.ledger a args (boundIntent a x.d args x.intent.protocolFee
      x.intent.authorizedCapabilityHash x.intent.payloadHash) := by
  have htokens := h.executed.tokens
  have hfee : x.settlement.protocolFee = x.intent.protocolFee := h.settlement.protocolFee
  have hdebit := h.settled.sourceDebit.amount
  have htotal := h.settled.total
  have hcredit := h.settled.destinationCredit.amount
  have hmin := UInt64.le_iff_toNat_le.mp h.accepted.2.1
  have hmax := UInt64.le_iff_toNat_le.mp h.intent.maxTotal
  simp only [AcceptedSettlement.terms, hfee, h.settlement.amountOut] at hdebit htotal hcredit
  exact {
    coreProgram := rfl, market := rfl, domain := rfl, engineProgram := rfl, engineState := rfl
    userInput := rfl, userOutput := rfl, mintIn := rfl, mintOut := rfl, domainInputVault := rfl
    domainOutputVault := rfl, protocolFeeVault := rfl, feeLedger := rfl, tokenProgram := rfl
    terms := ⟨rfl, rfl, rfl, rfl, rfl, rfl, rfl, h.intent.capabilityHash⟩
    payload := h.intent.payloadHash
    revisions := ⟨x.d.market, h.accounts.bound.market, rfl, rfl, h.intent.fee⟩
    capabilities := ⟨x.intent.opaqueDescriptors, h.intent.capability, h.intent.admitted⟩
    debited := ⟨x.d.userSourceA, x.after.userSourceA, h.accounts.bound.userSourceA,
      htokens.userSourceA, rfl, by simp only [boundIntent]; omega⟩
    maxDebit := by
      have hsum := h.intent.total
      simp only [boundIntent]
      omega
    credited := ⟨x.d.userDestinationB, x.after.userDestinationB,
      h.accounts.bound.userDestinationB, htokens.userDestinationB, by
        simp only [boundIntent]
        omega⟩
    slot := h.terms.slot }

/-- What executes is what was authorized: while the delegate of an authorization is installed, an
execution on its source executes exactly the intent that was signed. -/
theorem executed_as_authorized (env env' : Env config) (a : AuthorizeSpendV0)
    (args : AuthorizeSpendV0Args) (a' : ExecuteCallbackAuthenticatedProbeV0)
    (args' : ExecuteCallbackAuthenticatedProbeV0Args) (w w₁ w₂ w₃ : Core.World)
    (b : Wire.Routed.IntentBinding) (t : TokenAccount)
    (hauthorize : (handleAuthorizeSpendV0 env a args).run w = (.ok (), w₁))
    (hb : Wire.Routed.decodeIntentBinding args.wireIntent.toList = .ok b)
    (hexecute : (handleExecuteCallbackAuthenticatedProbeV0 env' a' args').run w₂ = (.ok (), w₃))
    (hsource : a'.userSourceA.key = a.source.key)
    (ht : w₂.ledger.token? a.source.key = some t)
    (hdelegate : t.delegate = some a.spendAuthority.key)
    (hcollision : ∀ p, prepareExecution env' w₂.ledger a' args' = .ok p →
      Set.InjOn Crypto.sha256
        (hashedFor a.source.key b ∪ hashedFor a.source.key (p.binding a' args'))) :
    ExecutesIntent env' w₂.ledger w₃.ledger a' args' b := by
  obtain ⟨source, i, mint, decimals, e, hauth, -⟩ := authorize_ok hauthorize
  obtain ⟨_, _, _, x, hx⟩ := execute_ok hexecute
  obtain rfl : b = i.binding := Except.ok.inj (hb.symm.trans hauth.decoded)
  obtain ⟨bump, hspend⟩ := hauth.spendAuthority
  obtain ⟨capability, hprepared⟩ := hx.prepared
  have htoken : x.d.userSourceA = t := by
    have hat := hx.accounts.bound.userSourceA
    rw [hsource, ht] at hat
    exact (Option.some.inj hat).symm
  have hkey : x.intent.spendAuthority = a.spendAuthority.key := by
    have hd := hx.intent.source.delegate
    rw [htoken, hdelegate] at hd
    exact (Option.some.inj hd).symm
  have hspend' := hx.intent.spendAuthority
  rw [hsource, hkey] at hspend'
  have hdigest := hx.intent.intentDigest
  have hinjective := hcollision _ hprepared
  unfold PreparedExecution.binding at hinjective
  have hbinding := intent_of_spendAuthority hauth.intentDigest hdigest hspend hspend' hinjective
  rw [hbinding]
  exact hx.executesIntent

end

section Sample

attribute [local instance] Sample.crypto

open Core.Sample
open ProgrammableSolana.Wire.Routed (timingPrepareCommit)

private theorem sample_authorizes : (handleAuthorizeSpendV0 Sample.env (Sample.authorize Sample.twoPhase)
    (Sample.wireIntent timingPrepareCommit Sample.twoPhase)).run
      (Sample.deposited timingPrepareCommit) =
    (.ok (), Sample.authorized timingPrepareCommit Sample.twoPhase) :=
  Exec.run_of_fst (by decide +kernel)

private theorem sample_intent :
    Wire.Routed.decodeIntentBinding
        (Sample.wireIntent timingPrepareCommit Sample.twoPhase).wireIntent.toList =
      .ok (Sample.intent timingPrepareCommit Sample.twoPhase) ∧
    (Sample.authorized timingPrepareCommit Sample.twoPhase).ledger.token? sourceA =
      some (delegated Sample.data.userSourceA Sample.twoPhase.spend 101) ∧
    (prepareExecution Sample.env (Sample.authorized timingPrepareCommit Sample.twoPhase).ledger
      (Sample.execute Sample.twoPhase) (Sample.executeArgs timingPrepareCommit Sample.twoPhase)).map
        (fun p => p.binding (Sample.execute Sample.twoPhase)
          (Sample.executeArgs timingPrepareCommit Sample.twoPhase)) =
      .ok (Sample.intent timingPrepareCommit Sample.twoPhase) ∧
    Wire.Routed.computeIntentDigest (Sample.intent timingPrepareCommit Sample.twoPhase) =
      .ok Sample.twoPhase.intent ∧
    canonicalSpendAuthority sourceA Sample.twoPhase.intent = .ok (Sample.twoPhase.spend, 255) := by
  decide +kernel

theorem executed_as_authorized_sample : ExecutesIntent Sample.env
    (Sample.authorized timingPrepareCommit Sample.twoPhase).ledger
    (Sample.executed timingPrepareCommit Sample.twoPhase).ledger (Sample.execute Sample.twoPhase)
    (Sample.executeArgs timingPrepareCommit Sample.twoPhase)
    (Sample.intent timingPrepareCommit Sample.twoPhase) := by
  obtain ⟨hdecoded, htoken, hbinding, hdigest, hspend⟩ := sample_intent
  refine executed_as_authorized Sample.env Sample.env (Sample.authorize Sample.twoPhase)
    (Sample.wireIntent timingPrepareCommit Sample.twoPhase) (Sample.execute Sample.twoPhase)
    (Sample.executeArgs timingPrepareCommit Sample.twoPhase) (Sample.deposited timingPrepareCommit)
    (Sample.authorized timingPrepareCommit Sample.twoPhase)
    (Sample.authorized timingPrepareCommit Sample.twoPhase)
    (Sample.executed timingPrepareCommit Sample.twoPhase) _ _ sample_authorizes hdecoded
    sample_executes rfl htoken rfl fun p hp => ?_
  rw [hp, Except.map, Except.ok.injEq] at hbinding
  rw [hbinding, Set.union_self]
  exact hashedFor_injOn hdigest hspend (by decide)

end Sample

end ProgrammableSolana.Routed
