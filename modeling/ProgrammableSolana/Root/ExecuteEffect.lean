import ProgrammableSolana.Core.ExecuteEffect
import ProgrammableSolana.Root.Execute
import ProgrammableSolana.Solana.Balances

/-! A successful `execute_engine_probe` in parts. -/
namespace ProgrammableSolana.Root

open ProgrammableSolana.Lib ProgrammableSolana.Solana ProgrammableSolana.Core

section

variable [Crypto]

theorem loadExecute_ok {L : Ledger} {a : ExecuteEngineProbeV0} {d : EnvelopeData}
    (h : loadExecute L a = .ok d) :
    a.user.isSigner = true ∧ loadEnvelope config L a.toEnvelope = .ok d ∧
      constrainEnvelope config L a.toEnvelope d (some a.user.key) = .ok () := by
  simp only [loadExecute, loadSigner, except_bind_ok_iff, require_ok_iff, except_pure_ok_iff] at h
  obtain ⟨_, hs, _, hload, _, hconstrain, _, -, rfl⟩ := h
  exact ⟨hs, hload, hconstrain⟩

/-- The keys an execution keeps apart. -/
def ExecuteEngineProbeV0.roles (a : ExecuteEngineProbeV0) : List Pubkey :=
  [a.user.key, a.market.key, a.domain.key, a.feeLedger.key, a.mintA.key, a.mintB.key,
    a.userSourceA.key, a.userDestinationB.key, a.vaultA.key, a.vaultB.key, a.feeVault.key,
    a.engineProgram.key, a.engineState.key, a.instructionsSysvar.key, a.tokenProgram.key]

/-- What loading and checking the accounts establish. -/
structure AccountsOk (L : Ledger) (a : ExecuteEngineProbeV0) (d : EnvelopeData) : Prop where
  signed : a.user.isSigner = true
  distinct : a.roles.Nodup
  bound : Bound config L a.toEnvelope d
  profiled : Profiled a.toEnvelope d
  source : ProtectedProfile d.userSourceA a.mintA.key a.user.key

theorem validateAccounts_ok {env : Env config} {L : Ledger} {a : ExecuteEngineProbeV0}
    {d : EnvelopeData} {u : Unit} (hload : loadExecute L a = .ok d)
    (h : validateAccounts env L a d = .ok u) : AccountsOk L a d := by
  obtain ⟨hsigned, hload, hconstrain⟩ := loadExecute_ok hload
  simp only [validateAccounts, except_bind_ok_iff, ensureDistinctRoles_ok_iff] at h
  obtain ⟨_, -, _, -, _, hroles, _, hbind, _, -, hprofile⟩ := h
  exact ⟨hsigned, hroles, bound_of_ok hload hconstrain hbind, profiled_of_ok hprofile,
    profiledSource_of_ok hprofile⟩

theorem AccountsOk.tokenKeys_nodup {L : Ledger} {a : ExecuteEngineProbeV0} {d : EnvelopeData}
    (h : AccountsOk L a d) : a.toEnvelope.tokenKeys.Nodup := by
  refine h.distinct.sublist ?_
  simp only [ExecuteEngineProbeV0.roles, Envelope.tokenKeys]
  exact .cons _ <| .cons _ <| .cons _ <| .cons _ <| .cons _ <| .cons _ <| .cons_cons _ <|
    .cons_cons _ <| .cons_cons _ <| .cons_cons _ <| .cons_cons _ <| List.nil_sublist _

/-- The engine program, its state and the sysvar are none of them the Token program. -/
theorem AccountsOk.token_not_callable {L : Ledger} {a : ExecuteEngineProbeV0} {d : EnvelopeData}
    (h : AccountsOk L a d) : a.engineProgram.key ≠ tokenProgram ∧ a.engineState.key ≠ tokenProgram ∧
      a.instructionsSysvar.key ≠ tokenProgram := by
  have hroles := h.distinct
  rw [← h.bound.tokenProgramKey]
  simp only [ExecuteEngineProbeV0.roles, List.nodup_cons, List.mem_cons, not_or] at hroles
  obtain ⟨-, -, -, -, -, -, -, -, -, -, -, hp, hs, hi, -⟩ := hroles
  exact ⟨hp.2.2.1, hs.2.1, hi.1⟩

/-- What the checks of the terms establish. -/
structure PlanOk (env : Env config) (a : ExecuteEngineProbeV0) (d : EnvelopeData)
    (args : ExecuteEngineProbeV0Args) (plan : ProbePlan) : Prop where
  amountIn : 0 < args.amountIn
  amountOut : 0 < args.amountOut
  slot : env.slot ≤ args.expiresAtSlot
  minOutput : args.minOutputCredit ≤ args.amountOut
  liquidity : args.amountOut ≤ d.domain.accountedB
  fee : plan.protocolFee.toNat = ceilFee args.amountIn.toNat d.market.feeBps.toNat
  maxFee : plan.protocolFee ≤ args.maxProtocolFee
  total : plan.totalInputDebit.toNat = args.amountIn.toNat + plan.protocolFee.toNat
  maxTotal : plan.totalInputDebit ≤ args.maxTotalInputDebit
  postA : plan.postAccountedA.toNat = d.domain.accountedA.toNat + args.amountIn.toNat
  postB : d.domain.accountedB.toNat = plan.postAccountedB.toNat + args.amountOut.toNat
  postFeeA : plan.postAccountedFeeA.toNat = d.feeLedger.accountedFeeA.toNat + plan.protocolFee.toNat
  binding : plan.binding = planBinding a d args plan.protocolFee
  digest : Wire.Root.computePlanHash plan.binding = .ok plan.planDigest
  programId : plan.engineInstruction.programId = a.engineProgram.key
  metas : plan.engineInstruction.accounts =
    [.new a.engineState.key false, .newReadonly a.instructionsSysvar.key false]
  data : Wire.Root.encodeEvaluateInstruction
    (engineRequest a d args plan.protocolFee plan.planDigest) = .ok plan.engineInstruction.data

theorem planExecution_ok {env : Env config} {a : ExecuteEngineProbeV0} {d : EnvelopeData}
    {args : ExecuteEngineProbeV0Args} {plan : ProbePlan}
    (h : planExecution env a d args = .ok plan) : PlanOk env a d args plan := by
  simp only [planExecution, liftWire, except_bind_ok_iff, require_ok_iff, okOr_ok_iff,
    checkedAdd_eq_some, checkedSub_eq_some, mapError_ok_iff, except_pure_ok_iff] at h
  obtain ⟨_, ⟨hin, hout⟩, _, hslot, _, hmin, _, hliq, charge, hcharge, _, hA, _, hB, _, hF, digest,
    hdigest, data, hdata, rfl⟩ := h
  obtain ⟨-, hfee, hmaxFee, htotal, hmaxTotal⟩ := chargeInput_ok hcharge
  exact ⟨hin, hout, hslot, hmin, hliq, hfee, hmaxFee, htotal, hmaxTotal, hA, hB, hF, rfl, hdigest, rfl,
    rfl, hdata⟩

omit [Crypto] in
theorem acceptReceipt_ok {a : ExecuteEngineProbeV0} {returned : Option (Pubkey × List UInt8)}
    {planDigest : Hash} {receipt : Wire.Root.EngineReceipt}
    (h : acceptReceipt a returned planDigest = .ok receipt) :
    ∃ data, returned = some (a.engineProgram.key, data) ∧
      Wire.Root.encodeReceipt receipt = .ok data ∧ receipt.planHash = planDigest := by
  simp only [acceptReceipt, liftWire, except_bind_ok_iff, mapError_ok_iff, require_ok_iff,
    except_pure_ok_iff] at h
  obtain ⟨data, htake, r, hdecode, _, hhash, rfl⟩ := h
  exact ⟨data, takeReceipt_ok htake, Wire.Root.decodeReceipt_ok_iff.mp hdecode, hhash⟩

theorem PlanOk.engine_writable {env : Env config} {a : ExecuteEngineProbeV0} {d : EnvelopeData}
    {args : ExecuteEngineProbeV0Args} {plan : ProbePlan} (h : PlanOk env a d args plan) (k : Pubkey) :
    (plan.engineInstruction.privileges ID).writable k = true ↔ k = a.engineState.key := by
  simp [Instruction.privileges, h.metas, AccountMeta.new, AccountMeta.newReadonly, eq_comm]

theorem PlanOk.token_not_callable {env : Env config} {L : Ledger} {a : ExecuteEngineProbeV0}
    {d : EnvelopeData} {args : ExecuteEngineProbeV0Args} {plan : ProbePlan}
    (h : PlanOk env a d args plan) (ha : AccountsOk L a d) :
    (plan.engineInstruction.privileges ID).callable tokenProgram = false := by
  obtain ⟨hp, hs, hi⟩ := ha.token_not_callable
  simp [Instruction.privileges, h.metas, h.programId, AccountMeta.new, AccountMeta.newReadonly, hp.symm,
    hs, hi]

def ProbePlan.post (plan : ProbePlan) : PostAccounted :=
  ⟨plan.postAccountedA, plan.postAccountedB, plan.postAccountedFeeA⟩

/-- Everything a successful execution went through. -/
structure Probed (env : Env config) (w w' : Core.World) (a : ExecuteEngineProbeV0)
    (args : ExecuteEngineProbeV0Args) (d after : EnvelopeData) (plan : ProbePlan)
    (receipt : Wire.Root.EngineReceipt) : Prop where
  accounts : AccountsOk w.ledger a d
  planned : PlanOk env a d args plan
  executed : Executed config w.ledger w'.ledger a.toEnvelope d after a.user.key (plan.terms args)
    plan.post (plan.engineInstruction.privileges ID).writable
  received : ∃ data, Answered w w' plan.engineInstruction a.engineProgram.key data ∧
    Wire.Root.encodeReceipt receipt = .ok data ∧ receipt.planHash = plan.planDigest
  conserved : ∀ mint, totalBalance w'.ledger mint = totalBalance w.ledger mint

omit [Crypto] in
private theorem tokenInvoke_totalBalance {w w' : Core.World} {caller : List AccountInfo}
    {signers : List Pubkey} {source mint destination authority : Pubkey} {amount : UInt64}
    {decimals : UInt8} {u : Unit} (h : (tokenInvoke caller signers
      (.transferChecked source mint destination authority amount decimals)
      (some authority)).run w = (.ok u, w')) (m : Pubkey) :
    totalBalance w'.ledger m = totalBalance w.ledger m := by
  obtain ⟨-, hop, -⟩ := tokenInvoke_ok h
  exact processTransfer_totalBalance hop m

private theorem settle_totalBalance {cfg : Config} {w w' : Core.World} {caller : List AccountInfo}
    {e : Envelope} {d after : EnvelopeData} {authority : Pubkey} {signers : List Pubkey}
    {t : SettleTerms} (h : (settle cfg caller e d authority signers t).run w = (.ok after, w'))
    (m : Pubkey) : totalBalance w'.ledger m = totalBalance w.ledger m := by
  simp only [settle, Exec.bind_ok_iff, Exec.mapError_run_ok_iff, Exec.ofExcept_ok_iff,
    Exec.get_ok_iff, Exec.pure_ok_iff] at h
  obtain ⟨_, w₁, h₁, _, w₂, h₂, _, _, ⟨-, rfl⟩, _, w₃, h₃, _, _, ⟨rfl, rfl⟩, _, _, ⟨-, rfl⟩, _, _,
    ⟨-, rfl⟩, -, rfl⟩ := h
  rw [tokenInvoke_totalBalance h₃, tokenInvoke_totalBalance h₂, tokenInvoke_totalBalance h₁]

/-- The event of an execution. -/
def probeEvent (a : ExecuteEngineProbeV0) (args : ExecuteEngineProbeV0Args) (plan : ProbePlan)
    (receipt : Wire.Root.EngineReceipt) : EngineProbeExecutedV0 where
  market := a.market.key
  domain := a.domain.key
  engineProgram := a.engineProgram.key
  engineState := a.engineState.key
  user := a.user.key
  mintA := a.mintA.key
  mintB := a.mintB.key
  amountIn := args.amountIn
  amountOut := args.amountOut
  protocolFee := plan.protocolFee
  planDigest := plan.planDigest
  engineSequence := receipt.stateSequence
  postAccountedA := plan.postAccountedA
  postAccountedB := plan.postAccountedB
  postAccountedFeeA := plan.postAccountedFeeA

/-- An execution step by step. -/
structure Ran (env : Env config) (a : ExecuteEngineProbeV0) (args : ExecuteEngineProbeV0Args)
    (w w' : Core.World) (d : EnvelopeData) (plan : ProbePlan) (receipt : Wire.Root.EngineReceipt) :
    Prop where
  load : loadExecute w.ledger a = .ok d
  valid : validateAccounts env w.ledger a d = .ok ()
  planned : planExecution env a d args = .ok plan
  phases : ∃ w₁ w₂ after,
    (invokeSigned ID env.callee a.infos plan.engineInstruction [a.engineState, a.instructionsSysvar]
      []).run w = (.ok (), w₁) ∧
    acceptReceipt a w₁.returnData plan.planDigest = .ok receipt ∧
    (settle config a.infos a.toEnvelope d a.user.key [] (plan.terms args)).run w₁ =
      (.ok after, w₂) ∧
    w' = { w₂ with
      ledger := accountedLedger w₂.ledger a.toEnvelope d plan.postAccountedA plan.postAccountedB
        plan.postAccountedFeeA
      log := w₂.log ++ [.emitted (.engineProbeExecuted (probeEvent a args plan receipt))] }

theorem execute_ok_iff {env : Env config} {a : ExecuteEngineProbeV0}
    {args : ExecuteEngineProbeV0Args} {w w' : Core.World} {u : Unit} :
    (handleExecuteEngineProbeV0 env a args).run w = (.ok u, w') ↔
      ∃ d plan receipt, Ran env a args w w' d plan receipt := by
  simp only [handleExecuteEngineProbeV0, Exec.bind_ok_iff, Exec.get_ok_iff, Exec.ofExcept_ok_iff,
    Exec.mapError_run_ok_iff, writeAccounted, Exec.modify_ok_iff, emit]
  constructor
  · rintro ⟨_, _, ⟨rfl, rfl⟩, d, _, ⟨hload, rfl⟩, _, _, ⟨hvalid, rfl⟩, plan, _, ⟨hplan, rfl⟩, _, w₁,
      hinvoke, _, _, ⟨rfl, rfl⟩, receipt, _, ⟨hreceipt, rfl⟩, after, w₂, hsettle, _, _, rfl, rfl⟩
    exact ⟨d, plan, receipt, hload, hvalid, hplan, w₁, w₂, after, hinvoke, hreceipt, hsettle, rfl⟩
  · rintro ⟨d, plan, receipt, hload, hvalid, hplan, w₁, w₂, after, hinvoke, hreceipt, hsettle, rfl⟩
    exact ⟨w, w, ⟨rfl, rfl⟩, d, w, ⟨hload, rfl⟩, (), w, ⟨hvalid, rfl⟩, plan, w, ⟨hplan, rfl⟩, (), w₁,
      hinvoke, w₁, w₁, ⟨rfl, rfl⟩, receipt, w₁, ⟨hreceipt, rfl⟩, after, w₂, hsettle, (), _, rfl, rfl⟩

namespace Ran

variable {env : Env config} {a : ExecuteEngineProbeV0} {args : ExecuteEngineProbeV0Args}
  {w w' : Core.World} {d : EnvelopeData} {plan : ProbePlan} {receipt : Wire.Root.EngineReceipt}

theorem accounts (h : Ran env a args w w' d plan receipt) : AccountsOk w.ledger a d :=
  validateAccounts_ok h.load h.valid

theorem terms (h : Ran env a args w w' d plan receipt) : PlanOk env a d args plan :=
  planExecution_ok h.planned

theorem engine_foreign (h : Ran env a args w w' d plan receipt) (k : Pubkey)
    (hk : (plan.engineInstruction.privileges ID).writable k = true) :
    (w.ledger k).owner ≠ tokenProgram := by
  rw [(h.terms.engine_writable k).mp hk, h.accounts.bound.engineStateOwner]
  exact h.accounts.token_not_callable.1

theorem probed (h : Ran env a args w w' d plan receipt) :
    ∃ after, Probed env w w' a args d after plan receipt := by
  have ha := h.accounts
  have hp := h.terms
  have hforeign := h.engine_foreign
  obtain ⟨w₁, w₂, after, hinvoke, hreceipt, hsettle, rfl⟩ := h.phases
  have hconf := invokeSigned_confined config.ID_ne_token config.ID_ne_system hinvoke
  obtain ⟨response, w₀, -, hperform, -, -, hledger, -⟩ := invokeSigned_ok hinvoke
  obtain ⟨c, hix, hbefore, -, hc, hcalls, -⟩ := invokeSigned_called hinvoke
  obtain ⟨data, hdata, hencode, hhash⟩ := acceptReceipt_ok hreceipt
  have htokens : TokensAt w₁.ledger a.toEnvelope d :=
    tokensAt_of_confined ha.bound.tokensAt hconf hforeign
  obtain ⟨hsettled, -⟩ := settle_ok hsettle htokens ha.tokenKeys_nodup
  have hexecuted : Executed config w.ledger (accountedLedger w₂.ledger a.toEnvelope d
      plan.postAccountedA plan.postAccountedB plan.postAccountedFeeA) a.toEnvelope d after a.user.key
      (plan.terms args) plan.post (plan.engineInstruction.privileges ID).writable := {
    bound := ha.bound
    profiled := ha.profiled
    distinct := ha.tokenKeys_nodup
    engineForeign := hforeign
    fee := by rw [← ha.bound.feeBps]; exact hp.fee
    postA := hp.postA
    postB := hp.postB
    postFeeA := hp.postFeeA
    phases := ⟨w₁.ledger, w₂.ledger, w₂.ledger, hconf, hsettled, .refl _, rfl⟩ }
  refine ⟨after, ha, hp, hexecuted, ?_, fun m => ?_⟩
  · refine ⟨data, ⟨c, hix, hbefore, hc.trans hdata, ?_⟩, hencode, hhash⟩
    rw [engineCalls_append, (settle_quiet hsettle).1, hcalls]
    simp
  · have hdomain := hexecuted.owner_before_write hconf hsettled (.refl _) ha.bound.domain
    have hfee := hexecuted.owner_before_write hconf hsettled (.refl _) ha.bound.feeLedger
    have hwrite : ∀ k, (accountedLedger w₂.ledger a.toEnvelope d plan.postAccountedA
        plan.postAccountedB plan.postAccountedFeeA).token? k = w₂.ledger.token? k :=
      accountedLedger_token? (by rw [hdomain]; exact config.ID_ne_token)
        (by rw [hfee]; exact config.ID_ne_token)
    rw [totalBalance_congr hwrite, settle_totalBalance hsettle, hledger]
    exact totalBalance_congr (performAll_token? (hp.token_not_callable ha) hperform) m

end Ran

theorem execute_ok {env : Env config} {a : ExecuteEngineProbeV0} {args : ExecuteEngineProbeV0Args}
    {w w' : Core.World} {u : Unit}
    (h : (handleExecuteEngineProbeV0 env a args).run w = (.ok u, w')) :
    ∃ d after plan receipt, Probed env w w' a args d after plan receipt := by
  obtain ⟨d, plan, receipt, hran⟩ := execute_ok_iff.mp h
  obtain ⟨after, hprobed⟩ := hran.probed
  exact ⟨d, after, plan, receipt, hprobed⟩

end

end ProgrammableSolana.Root
