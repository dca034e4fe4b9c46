import ProgrammableSolana.Core.Rerun
import ProgrammableSolana.Core.Supply
import ProgrammableSolana.Root.Runs
import ProgrammableSolana.Solana.Replay

/-! Executions on different markets commute: what one of them moves in the balances the other one
sees never reaches a digest, a check that matters or an accounted field. -/
namespace ProgrammableSolana.Root

open ProgrammableSolana.Lib ProgrammableSolana.Solana ProgrammableSolana.Core
open ProgrammableSolana.Lib.Transactions

section

variable [Crypto]

/-- What an execution tells the outside: its event, and the engine's answer to its request. -/
def Reports (w w' : Core.World) (event : EngineProbeExecutedV0) (ix : Instruction)
    (data : List UInt8) : Prop :=
  emittedEvents w'.log = emittedEvents w.log ++ [.engineProbeExecuted event] ∧
    Answered w w' ix event.engineProgram data

/-- The accounts an execution overwrites are three, and none of them holds tokens. -/
theorem AccountsOk.ownKeys {L : Ledger} {a : ExecuteEngineProbeV0} {d : EnvelopeData}
    (h : AccountsOk L a d) : a.toEnvelope.ownKeys.Nodup ∧
      (∀ k ∈ a.toEnvelope.ownKeys, k ∉ a.toEnvelope.tokenKeys) ∧
      a.instructionsSysvar.key ∉ a.toEnvelope.ownKeys ++ a.toEnvelope.tokenKeys := by
  have hroles := h.distinct
  simp only [ExecuteEngineProbeV0.roles, List.nodup_cons, List.mem_cons, not_or] at hroles
  obtain ⟨-, -, hd, hf, -, -, hs, ht, ha, hb, hv, -, hes, -⟩ := hroles
  simp only [Envelope.ownKeys, Envelope.tokenKeys, List.nodup_cons, List.mem_append, List.mem_cons,
    List.not_mem_nil, or_false, not_or, forall_eq_or_imp, forall_eq, not_false_eq_true]
  grind

namespace Ran

variable {env : Env config} {a : ExecuteEngineProbeV0} {args : ExecuteEngineProbeV0Args}
  {w w' v : Core.World} {d : EnvelopeData} {plan : ProbePlan} {receipt : Wire.Root.EngineReceipt}

theorem run (h : Ran env a args w w' d plan receipt) :
    (handleExecuteEngineProbeV0 env a args).run w = (.ok (), w') :=
  execute_ok_iff.mpr ⟨d, plan, receipt, h⟩

private theorem reports (h : Ran env a args w w' d plan receipt) :
    ∃ data, Wire.Root.encodeReceipt receipt = .ok data ∧
      Reports w w' (probeEvent a args plan receipt) plan.engineInstruction data := by
  obtain ⟨w₁, w₂, after, hinvoke, haccept, hsettle, rfl⟩ := h.phases
  obtain ⟨c, hix, hbefore, -, hc, hcalls, hemitted⟩ := invokeSigned_called hinvoke
  obtain ⟨data, hdata, hencode, -⟩ := acceptReceipt_ok haccept
  have hquiet := settle_quiet hsettle
  refine ⟨data, hencode, ?_, c, hix, hbefore, hc.trans hdata, ?_⟩
  · rw [emittedEvents_append, hquiet.2, hemitted]
    simp
  · rw [engineCalls_append, hquiet.1, hcalls]
    simp

private theorem ledger_eq (h : Ran env a args w w' d plan receipt) {w₁ : Core.World}
    (hinvoke : (invokeSigned ID env.callee a.infos plan.engineInstruction
      [a.engineState, a.instructionsSysvar] []).run w = (.ok (), w₁)) : w'.ledger =
    Pi.map (footprint a.toEnvelope d (plan.terms args) plan.post (w₁.ledger a.engineState.key))
      w.ledger := by
  have ha := h.accounts
  obtain ⟨hnodup, htokens, -⟩ := ha.ownKeys
  obtain ⟨w₀, w₂, after, hinvoke', -, hsettle, rfl⟩ := h.phases
  obtain rfl : w₀ = w₁ := congrArg Prod.snd (hinvoke'.symm.trans hinvoke)
  have hconf : Confined ID (plan.engineInstruction.privileges ID).writable w.ledger w₀.ledger :=
    invokeSigned_confined config.ID_ne_token config.ID_ne_system hinvoke
  have hengine : ∀ k, k ≠ a.engineState.key → w₀.ledger k = w.ledger k := by
    intro k hk
    refine hconf.frame k ?_
    by_contra hne
    exact hk ((h.terms.engine_writable k).mp (by simpa using hne))
  have hconf' : Confined config.ID (plan.engineInstruction.privileges ID).writable w.ledger
      w₀.ledger := hconf
  have htokensAt : TokensAt w₀.ledger a.toEnvelope d :=
    tokensAt_of_confined ha.bound.tokensAt hconf' h.engine_foreign
  have hsettled := settle_footprint hsettle htokensAt ha.tokenKeys_nodup ha.source.delegate
    ha.profiled.vaultB.delegate
  have heq : accountedLedger (Pi.map (fun k => credit ((plan.terms args).delta a.toEnvelope k))
      w₀.ledger) a.toEnvelope d plan.post.a plan.post.b plan.post.feeA = _ :=
    accountedLedger_footprint hengine hnodup htokens
  show accountedLedger w₂.ledger a.toEnvelope d plan.post.a plan.post.b plan.post.feeA = _
  rw [hsettled]
  exact heq

private theorem state_eq (h : Ran env a args w w' d plan receipt) {w₁ : Core.World}
    (hinvoke : (invokeSigned ID env.callee a.infos plan.engineInstruction
      [a.engineState, a.instructionsSysvar] []).run w = (.ok (), w₁)) :
    w'.ledger a.engineState.key = w₁.ledger a.engineState.key := by
  rw [h.ledger_eq hinvoke, Pi.map_apply, footprint, if_pos rfl]

/-- The whole effect of an execution. -/
theorem footprint_eq (h : Ran env a args w w' d plan receipt) : w'.ledger =
    Pi.map (footprint a.toEnvelope d (plan.terms args) plan.post (w'.ledger a.engineState.key))
      w.ledger := by
  obtain ⟨w₁, -, -, hinvoke, -⟩ := h.phases
  rw [h.state_eq hinvoke]
  exact h.ledger_eq hinvoke

/-- An execution goes through again, with the same plan and the same receipt, where balances have
moved but still cover what it asks of them. -/
theorem again (h : Ran env a args w w' d plan receipt) {δ : Pubkey → UInt64}
    (hshows : Shows w.ledger v.ledger a.toEnvelope δ)
    (hsysvar : v.ledger a.instructionsSysvar.key = w.ledger a.instructionsSysvar.key)
    (hafford : Affords a.toEnvelope d δ (plan.terms args))
    (hreads : ReadsPassed env.callee a.engineProgram.key)
    (hA : totalBalance v.ledger a.mintA.key < 2 ^ 64)
    (hB : totalBalance v.ledger a.mintB.key < 2 ^ 64) :
    ∃ v', Ran env a args v v' (d.credited a.toEnvelope δ) plan receipt ∧
      v'.ledger a.engineState.key = w'.ledger a.engineState.key := by
  have ha := h.accounts
  have hp := h.terms
  obtain ⟨w₁, w₂, after, hinvoke, haccept, hsettle, hw'⟩ := h.phases
  have hload : loadExecute v.ledger a = .ok (d.credited a.toEnvelope δ) := by
    have hl := h.load
    simp only [loadExecute, except_bind_ok_iff, except_pure_ok_iff] at hl ⊢
    obtain ⟨_, hsigner, _, henvelope, _, hconstrain, _, haddress, rfl⟩ := hl
    exact ⟨(), hsigner, _, hshows.loads henvelope, (), (hshows.constrains _).trans hconstrain, (),
      haddress, rfl⟩
  have hvalid : validateAccounts env v.ledger a (d.credited a.toEnvelope δ) = .ok () := by
    have hv := h.valid
    simp only [validateAccounts, except_bind_ok_iff] at hv ⊢
    obtain ⟨_, hremaining, _, hdepth, _, hroles, _, hbind, _, hwritable, hprofile⟩ := hv
    exact ⟨(), hremaining, (), hdepth, (), hroles, (), hshows.binds.trans hbind, (), hwritable,
      hafford.profiles hprofile⟩
  have hplanned : planExecution env a (d.credited a.toEnvelope δ) args = .ok plan := h.planned
  have hmetas : ∀ m ∈ plan.engineInstruction.accounts,
      v.ledger m.pubkey = w.ledger m.pubkey := by
    intro m hm
    rw [hp.metas, List.mem_cons, List.mem_singleton] at hm
    rcases hm with rfl | rfl
    · exact hshows.state
    · exact hsysvar
  obtain ⟨v₁, hinvoke', hL, hreturned⟩ := invokeSigned_replay hinvoke (hp.token_not_callable ha)
    (hp.programId ▸ hreads) (hp.programId ▸ hshows.code _ (by simp)) hmetas
  have hv := validateAccounts_ok hload hvalid
  obtain ⟨-, henvelope, hconstrain⟩ := loadExecute_ok hload
  have hprofile : profileEnvelope a.toEnvelope (d.credited a.toEnvelope δ) (some a.user.key) =
      .ok () := by
    simp only [validateAccounts, except_bind_ok_iff] at hvalid
    obtain ⟨_, -, _, -, _, -, _, -, _, -, hprofile⟩ := hvalid
    exact hprofile
  have hforeign : ∀ k, (plan.engineInstruction.privileges ID).writable k = true →
      (v.ledger k).owner ≠ tokenProgram := by
    intro k hk
    rw [(hp.engine_writable k).mp hk, hshows.state]
    exact h.engine_foreign _ ((hp.engine_writable _).mpr rfl)
  have hsettleable : Settleable config a.infos v₁.ledger a.toEnvelope (d.credited a.toEnvelope δ)
      a.user.key [] (plan.terms args) := by
    refine hv.bound.settleable hv.profiled hv.tokenKeys_nodup (writable_of_ok hconstrain) ?_
      ⟨hv.source.state, hv.source.mint⟩ (destination_of_ok hprofile) hA hB
      (invokeSigned_confined config.ID_ne_token config.ID_ne_system hinvoke') hforeign
      (.inl ⟨a.user, by simp [ExecuteEngineProbeV0.infos], rfl, hv.signed⟩) hp.total hafford.source
      hp.liquidity
    intro info hinfo
    simp only [Envelope.tokenInfos, List.mem_cons, List.not_mem_nil, or_false] at hinfo
    rcases hinfo with rfl | rfl | rfl | rfl | rfl <;> simp [ExecuteEngineProbeV0.infos]
  obtain ⟨after', v₂, hsettle', -, -⟩ := settle_succeeds hsettleable
    (Pays.of_owner hp.total hafford.source hv.source.delegate hv.source.owner)
  have haccept' : acceptReceipt a v₁.returnData plan.planDigest = .ok receipt := by
    rw [hreturned]
    exact haccept
  have hagain : Ran env a args v _ (d.credited a.toEnvelope δ) plan receipt :=
    ⟨hload, hvalid, hplanned, v₁, v₂, after', hinvoke', haccept', hsettle', rfl⟩
  refine ⟨_, hagain, ?_⟩
  rw [hagain.state_eq hinvoke', h.state_eq hinvoke, hL, written,
    if_pos ((hp.engine_writable _).mpr rfl)]

theorem code (h : Ran env a args w w' d plan receipt) :
    (w.ledger a.engineProgram.key).executable = true ∧
      (w.ledger a.engineState.key).executable = false := by
  have hvalid := h.valid
  simp only [validateAccounts, except_bind_ok_iff] at hvalid
  obtain ⟨_, -, _, -, _, -, _, hbind, -⟩ := hvalid
  exact engine_of_ok hbind

theorem sysvar (h : Ran env a args w w' d plan receipt) :
    a.instructionsSysvar.key = instructionsSysvarId := by
  have hload := h.load
  simp only [loadExecute, constraintAddress, except_bind_ok_iff, require_ok_iff] at hload
  obtain ⟨_, -, _, -, _, -, _, haddress, -⟩ := hload
  exact haddress

private theorem owner_of_own (h : Ran env a args w w' d plan receipt) {k : Pubkey}
    (hk : k ∈ a.toEnvelope.ownKeys) : (w.ledger k).owner ≠ tokenProgram := by
  have hb := h.accounts.bound
  simp only [Envelope.ownKeys, List.mem_cons, List.not_mem_nil, or_false] at hk
  rcases hk with rfl | rfl | rfl
  · rw [hb.engineStateOwner]
    exact h.accounts.token_not_callable.1
  · rw [(Ledger.state?_eq_some.mp hb.domain).1]
    exact config.ID_ne_token
  · rw [(Ledger.state?_eq_some.mp hb.feeLedger).1]
    exact config.ID_ne_token

/-- Only the two debits of an execution lower a balance. -/
theorem delta_grows (h : Ran env a args w w' d plan receipt) {k : Pubkey} {x : TokenAccount}
    (hx : w.ledger.token? k = some x) (hs : k ≠ a.userSourceA.key) (hb : k ≠ a.vaultB.key) :
    x.amount ≤ x.amount + (plan.terms args).delta a.toEnvelope k := by
  obtain ⟨after, hprobed⟩ := h.probed
  obtain ⟨L₁, L₂, hsettled⟩ := hprobed.executed.settled
  have hbound := h.accounts.bound
  obtain ⟨-, hd, ha, -, hf⟩ := (plan.terms args).delta_eq h.accounts.tokenKeys_nodup
  have hgrown : ∀ {y y' : TokenAccount} {n : UInt64}, Credited y y' n.toNat →
      y.amount ≤ y.amount + n := by
    intro y y' n hy
    rw [UInt64.le_iff_toNat_le, ← amount_of_credit hy.amount, hy.amount]
    omega
  by_cases hmem : k ∈ a.toEnvelope.tokenKeys
  · simp only [Envelope.tokenKeys, List.mem_cons, List.not_mem_nil, or_false] at hmem
    rcases hmem with rfl | rfl | rfl | rfl | rfl
    · exact absurd rfl hs
    · rw [hd, ← Option.some.inj (hbound.userDestinationB.symm.trans hx)]
      exact hgrown hsettled.destinationCredit
    · rw [ha, ← Option.some.inj (hbound.vaultA.symm.trans hx)]
      exact hgrown hsettled.vaultACredit
    · exact absurd rfl hb
    · rw [hf, ← Option.some.inj (hbound.feeVault.symm.trans hx)]
      exact hgrown hsettled.feeVaultCredit
  · rw [SettleTerms.delta_of_not_mem hmem, UInt64.add_zero]
    exact UInt64.le_refl _

end Ran

theorem Ran.classic {env : Env config} {a : ExecuteEngineProbeV0} {args : ExecuteEngineProbeV0Args}
    {w w' : Core.World} {d : EnvelopeData} {plan : ProbePlan} {receipt : Wire.Root.EngineReceipt}
    (h : Ran env a args w w' d plan receipt) :
    a.mintA.key ≠ nativeMint ∧ a.mintB.key ≠ nativeMint := by
  have hvalid := h.valid
  simp only [validateAccounts, profileEnvelope, validateClassicMint, except_bind_ok_iff,
    require_ok_iff] at hvalid
  obtain ⟨_, -, _, -, _, -, _, -, _, -, _, ⟨_, -, _, hA, -⟩, _, ⟨_, -, _, hB, -⟩, -⟩ := hvalid
  exact ⟨hA, hB⟩

theorem Ran.supplied {env : Env config} {a : ExecuteEngineProbeV0} {args : ExecuteEngineProbeV0Args}
    {w w' : Core.World} {d : EnvelopeData} {plan : ProbePlan} {receipt : Wire.Root.EngineReceipt}
    (h : Ran env a args w w' d plan receipt) (hs : Supplied w.ledger) : Supplied w'.ledger := by
  have hne := config.ID_ne_token
  obtain ⟨after, hprobed⟩ := h.probed
  have hdomain := (Ledger.state?_eq_some.mp hprobed.executed.domain).1
  have hfee := (Ledger.state?_eq_some.mp hprobed.executed.feeLedger).1
  obtain ⟨w₁, w₂, after, hinvoke, -, hsettle, rfl⟩ := h.phases
  simp only [accountedLedger, Ledger.setState, Ledger.setData_owner] at hdomain hfee
  refine accountedLedger_supplied (settle_supplied hsettle (invokeSigned_supplied hs hinvoke)) ?_ ?_
  · rw [hdomain]
    exact hne
  · rw [hfee]
    exact hne

theorem Op.supplied {o : Op} {w w' : Core.World} (h : o.step w = .ok w') (hs : Supplied w.ledger) :
    Supplied w'.ledger := by
  have h := Exec.transact_ok_iff.mp h
  cases o with
  | initializeMarketDomainV0 a args =>
    obtain ⟨bumps, hinit⟩ := initialize_ok h
    exact hinit.supplied hs
  | depositV0 a args hsigners => exact deposit_supplied h hs
  | executeEngineProbeV0 env a args hsigners =>
    obtain ⟨d, plan, receipt, hran⟩ := execute_ok_iff.mp h
    exact hran.supplied hs
  | external action => exact Action.perform_supplied hs (Exec.mapError_run_ok_iff.mp h)

private theorem run_supplied {w : Core.World} (h : Supplied w.ledger) (txs : List (List Op)) :
    Supplied (run Op.step w txs).1.ledger :=
  run_preserves (P := fun (w : Core.World) _ => Supplied w.ledger) h
    fun _ _ _ _ _ _ _ hs hstep => Op.supplied hstep hs

/-- What the user pays for an execution. -/
def ExecuteEngineProbeV0Args.totalDebit (args : ExecuteEngineProbeV0Args) : ℕ :=
  args.amountIn.toNat + ceilFee args.amountIn.toNat protocolFeeBpsV0.toNat

section Pairs

variable {env : Env config} {a₁ a₂ : ExecuteEngineProbeV0} {args₁ args₂ : ExecuteEngineProbeV0Args}
  {w w₁ w₂ : Core.World} {d₁ d₂ : EnvelopeData} {plan₁ plan₂ : ProbePlan}
  {receipt₁ receipt₂ : Wire.Root.EngineReceipt}
  (h₁ : Ran env a₁ args₁ w w₁ d₁ plan₁ receipt₁) (h₂ : Ran env a₂ args₂ w w₂ d₂ plan₂ receipt₂)
  (hinv : Inv config w.ledger) (hmarkets : a₁.market.key ≠ a₂.market.key)
  (hstates : a₁.engineState.key ≠ a₂.engineState.key)

include h₁ h₂ hinv hmarkets in
/-- The Core's accounts of one market are not overwritten by an execution on another. -/
theorem not_own_of_owns {k : Pubkey} (hk : (recordOf a₂.toEnvelope d₂).owns a₂.market.key k) :
    k ∉ a₁.toEnvelope.ownKeys := by
  have hr₁ := h₁.accounts.bound.marketOk hinv
  have hr₂ := h₂.accounts.bound.marketOk hinv
  have howner : (w.ledger k).owner = ID := by
    obtain ⟨s, hs⟩ := hr₂.state_of_owns hk
    exact (Ledger.state?_eq_some.mp hs).1
  intro hmem
  simp only [Envelope.ownKeys, List.mem_cons, List.not_mem_nil, or_false] at hmem
  rcases hmem with rfl | rfl | rfl
  · rw [h₁.accounts.bound.engineStateOwner] at howner
    exact h₁.accounts.bound.engineNotCore howner
  · exact hmarkets (hr₁.key_of_owns_both hr₂ (.inr (.inl rfl)) hk)
  · exact hmarkets (hr₁.key_of_owns_both hr₂ (.inr (.inr rfl)) hk)

include h₁ h₂ in
private theorem not_token_of_own {k : Pubkey} (hk : k ∈ a₁.toEnvelope.ownKeys) :
    k ∉ a₂.toEnvelope.tokenKeys := by
  intro hmem
  obtain ⟨x, hx⟩ := h₂.accounts.bound.token_of_mem hmem
  exact h₁.owner_of_own hk (Ledger.token?_eq_some.mp hx).1

include h₁ h₂ hinv hmarkets hstates in
private theorem apart : Apart a₁.toEnvelope a₂.toEnvelope where
  own k hk hk' := by
    simp only [Envelope.ownKeys, List.mem_cons, List.not_mem_nil, or_false] at hk'
    rcases hk' with rfl | hown
    · simp only [Envelope.ownKeys, List.mem_cons, List.not_mem_nil, or_false] at hk
      rcases hk with heq | hown
      · exact hstates heq.symm
      · refine not_own_of_owns h₂ h₁ hinv hmarkets.symm (.inr hown) ?_
        simp [Envelope.ownKeys]
    · exact not_own_of_owns h₁ h₂ hinv hmarkets (.inr hown) hk
  tokens k hk := not_token_of_own h₁ h₂ hk
  tokens' k hk := not_token_of_own h₂ h₁ hk

include h₁ h₂ hinv hmarkets hstates in
/-- After the first execution the second one finds its accounts as before, up to balances. -/
theorem shows_of_ran : Shows w.ledger w₁.ledger a₂.toEnvelope
    ((plan₁.terms args₁).delta a₁.toEnvelope) := by
  have hbound := h₂.accounts.bound
  have happart := apart h₁ h₂ hinv hmarkets hstates
  constructor
  · intro k hk
    rw [h₁.footprint_eq, Pi.map_apply, footprint_of_not_own]
    intro hown
    rcases List.mem_append.mp hk with hrecord | htoken
    · simp only [Envelope.recordKeys, List.mem_cons, List.not_mem_nil, or_false] at hrecord
      rcases hrecord with rfl | rfl | rfl | rfl | rfl
      · exact not_own_of_owns h₁ h₂ hinv hmarkets (.inl rfl) hown
      · exact not_own_of_owns h₁ h₂ hinv hmarkets (.inr (.inl rfl)) hown
      · exact not_own_of_owns h₁ h₂ hinv hmarkets (.inr (.inr rfl)) hown
      · exact h₁.owner_of_own hown (Ledger.mint?_eq_some.mp hbound.mintA).1
      · exact h₁.owner_of_own hown (Ledger.mint?_eq_some.mp hbound.mintB).1
    · exact not_token_of_own h₁ h₂ hown htoken
  · have hmem : a₂.engineState.key ∈ a₂.toEnvelope.ownKeys := by simp [Envelope.ownKeys]
    rw [h₁.footprint_eq, Pi.map_apply,
      footprint_of_not_mem (fun hown => happart.own _ hown hmem) (happart.tokens' _ hmem)]
  · intro k hk
    rw [h₁.footprint_eq, Pi.map_apply, footprint_executable]
    simp only [List.mem_cons, List.not_mem_nil, or_false] at hk
    rcases hk with rfl | rfl
    · intro heq
      have hcode := h₂.code.1
      rw [heq, h₁.code.2] at hcode
      cases hcode
    · rw [hbound.tokenProgramKey]
      exact h₁.accounts.token_not_callable.2.1.symm

include h₁ h₂ in
private theorem sysvar_of_ran : w₁.ledger a₂.instructionsSysvar.key =
    w.ledger a₂.instructionsSysvar.key := by
  obtain ⟨-, -, hsysvar⟩ := h₁.accounts.ownKeys
  rw [h₂.sysvar, ← h₁.sysvar, h₁.footprint_eq, Pi.map_apply]
  rw [List.mem_append, not_or] at hsysvar
  exact footprint_of_not_mem hsysvar.1 hsysvar.2

/-- What an execution takes from its source is there and is the amount of its arguments. -/
theorem Ran.pays {env : Env config} {a : ExecuteEngineProbeV0} {args : ExecuteEngineProbeV0Args}
    {w w' : Core.World} {d : EnvelopeData} {plan : ProbePlan} {receipt : Wire.Root.EngineReceipt}
    (h : Ran env a args w w' d plan receipt) :
    (plan.terms args).totalInputDebit.toNat = args.totalDebit ∧
      args.totalDebit ≤ d.userSourceA.amount.toNat := by
  obtain ⟨after, hprobed⟩ := h.probed
  obtain ⟨L₁, L₂, hsettled⟩ := hprobed.executed.settled
  have htotal : (plan.terms args).totalInputDebit.toNat = args.totalDebit := by
    have hfee := h.terms.fee
    rw [h.accounts.bound.feeBps] at hfee
    rw [ExecuteEngineProbeV0Args.totalDebit, ← hfee]
    exact h.terms.total
  have hdebit := hsettled.sourceDebit.amount
  refine ⟨htotal, ?_⟩
  omega

/-- A user signs with an address of its own, so it does not pay from a vault. -/
theorem Ran.source_outside {env : Env config} {a : ExecuteEngineProbeV0}
    {args : ExecuteEngineProbeV0Args} {w w' : Core.World} {d : EnvelopeData} {plan : ProbePlan}
    {receipt : Wire.Root.EngineReceipt} (h : Ran env a args w w' d plan receipt)
    (hsigners : SignedOutside ID a.infos) {key : Pubkey} {r : MarketRecord}
    (hr : MarketOk config w.ledger key r) : a.userSourceA.key ∉ r.vaultKeys := by
  refine source_not_vault h.accounts.bound (.inl ?_) hr
  rw [h.accounts.source.owner]
  exact hsigners a.user (by simp [ExecuteEngineProbeV0.infos]) h.accounts.signed

include h₁ h₂ hinv hmarkets in
/-- After the first execution the balances still cover the second one. -/
theorem affords_of_ran (hsigners₁ : SignedOutside ID a₁.infos) (hsigners₂ : SignedOutside ID a₂.infos)
    (hfunds : a₁.userSourceA.key = a₂.userSourceA.key → ∀ x,
      w.ledger.token? a₁.userSourceA.key = some x →
      args₁.totalDebit + args₂.totalDebit ≤ x.amount.toNat) :
    Affords a₂.toEnvelope d₂ ((plan₁.terms args₁).delta a₁.toEnvelope) (plan₂.terms args₂) := by
  have hb₁ := h₁.accounts.bound
  have hb₂ := h₂.accounts.bound
  have hr₁ := hb₁.marketOk hinv
  have hr₂ := hb₂.marketOk hinv
  obtain ⟨htotal₁, -⟩ := h₁.pays
  obtain ⟨htotal₂, hheld₂⟩ := h₂.pays
  have hvault : ∀ k ∈ (recordOf a₂.toEnvelope d₂).vaultKeys, ∀ x, w.ledger.token? k = some x →
      x.amount ≤ x.amount + (plan₁.terms args₁).delta a₁.toEnvelope k := by
    intro k hk x hx
    refine h₁.delta_grows hx ?_ ?_
    · rintro rfl
      exact h₁.source_outside hsigners₁ hr₂ hk
    · rintro rfl
      exact hmarkets (hr₁.key_of_vault hr₂ (by simp [MarketRecord.vaultKeys, recordOf]) hk)
  simp only [MarketRecord.vaultKeys, recordOf, List.mem_cons, List.not_mem_nil, or_false,
    forall_eq_or_imp, forall_eq] at hvault
  obtain ⟨ha, hb, hf⟩ := hvault
  have hprofiled := h₂.accounts.profiled
  refine ⟨?_, UInt64.le_trans hprofiled.coversA (ha _ hb₂.vaultA),
    UInt64.le_trans hprofiled.coversB (hb _ hb₂.vaultB),
    UInt64.le_trans hprofiled.coversFee (hf _ hb₂.feeVault)⟩
  by_cases hsame : a₁.userSourceA.key = a₂.userSourceA.key
  · have hx : w.ledger.token? a₁.userSourceA.key = some d₂.userSourceA := by
      rw [hsame]
      exact hb₂.userSourceA
    have hsum := hfunds hsame _ hx
    obtain ⟨hdelta, -⟩ := (plan₁.terms args₁).delta_eq h₁.accounts.tokenKeys_nodup
    have hle : (plan₁.terms args₁).totalInputDebit ≤ d₂.userSourceA.amount := by
      rw [UInt64.le_iff_toNat_le, htotal₁]
      omega
    rw [← hsame, hdelta, ← UInt64.sub_eq_add_neg, UInt64.le_iff_toNat_le,
      UInt64.toNat_sub_of_le _ _ hle, htotal₁, htotal₂]
    omega
  · refine UInt64.le_trans ?_ (h₁.delta_grows hb₂.userSourceA (Ne.symm hsame) ?_)
    · rw [UInt64.le_iff_toNat_le, htotal₂]
      exact hheld₂
    · intro heq
      refine h₂.source_outside hsigners₂ hr₁ ?_
      rw [heq]
      simp [MarketRecord.vaultKeys, recordOf]

include h₁ h₂ hinv hmarkets hstates in
/-- The second execution goes through after the first, with its own plan, receipt and engine
state. -/
theorem second_runs (hsigners₁ : SignedOutside ID a₁.infos) (hsigners₂ : SignedOutside ID a₂.infos)
    (hfunds : a₁.userSourceA.key = a₂.userSourceA.key → ∀ x,
      w.ledger.token? a₁.userSourceA.key = some x →
      args₁.totalDebit + args₂.totalDebit ≤ x.amount.toNat)
    (hreads : ReadsPassed env.callee a₂.engineProgram.key) (hsupply : Supplied w.ledger) :
    ∃ v d, Ran env a₂ args₂ w₁ v d plan₂ receipt₂ ∧ v.ledger =
      Pi.map (footprint a₂.toEnvelope d₂ (plan₂.terms args₂) plan₂.post
        (w₂.ledger a₂.engineState.key)) w₁.ledger := by
  have hsupply₁ := h₁.supplied hsupply
  have hA := hsupply₁.totalBalance_lt h₂.classic.1
  have hB := hsupply₁.totalBalance_lt h₂.classic.2
  obtain ⟨v, hv, hstate⟩ := h₂.again (shows_of_ran h₁ h₂ hinv hmarkets hstates)
    (sysvar_of_ran h₁ h₂) (affords_of_ran h₁ h₂ hinv hmarkets hsigners₁ hsigners₂ hfunds) hreads hA hB
  refine ⟨v, _, hv, ?_⟩
  rw [← hstate]
  exact hv.footprint_eq

end Pairs

/-- Executions on different markets commute: if each goes through from a reachable state, both go
through in either order, to the same ledger, with the same plans and the same receipts. -/
theorem executions_commute (w₀ : Core.World) (hgenesis : Genesis config w₀.ledger)
    (hsupplied : Supplied w₀.ledger) (txs : List (List Op)) (w : Core.World)
    (hw : w = (run Op.step w₀ txs).1) (env : Env config) (a₁ a₂ : ExecuteEngineProbeV0)
    (args₁ args₂ : ExecuteEngineProbeV0Args)
    (hsigners₁ : SignedOutside ID a₁.infos) (hsigners₂ : SignedOutside ID a₂.infos)
    (hmarkets : a₁.market.key ≠ a₂.market.key) (hstates : a₁.engineState.key ≠ a₂.engineState.key)
    (hreads₁ : ReadsPassed env.callee a₁.engineProgram.key)
    (hreads₂ : ReadsPassed env.callee a₂.engineProgram.key)
    (hfunds : a₁.userSourceA.key = a₂.userSourceA.key → ∀ x,
      w.ledger.token? a₁.userSourceA.key = some x →
      args₁.totalDebit + args₂.totalDebit ≤ x.amount.toNat)
    (w₁ w₂ : Core.World)
    (h₁ : (Op.executeEngineProbeV0 env a₁ args₁ hsigners₁).step w = .ok w₁)
    (h₂ : (Op.executeEngineProbeV0 env a₂ args₂ hsigners₂).step w = .ok w₂) :
    ∃ w₁₂ w₂₁ event₁ event₂ request₁ request₂ data₁ data₂,
      (Op.executeEngineProbeV0 env a₂ args₂ hsigners₂).step w₁ = .ok w₁₂ ∧
      (Op.executeEngineProbeV0 env a₁ args₁ hsigners₁).step w₂ = .ok w₂₁ ∧
      w₁₂.ledger = w₂₁.ledger ∧
      Reports w w₁ event₁ request₁ data₁ ∧ Reports w₂ w₂₁ event₁ request₁ data₁ ∧
      Reports w w₂ event₂ request₂ data₂ ∧ Reports w₁ w₁₂ event₂ request₂ data₂ := by
  have hinv : Inv config w.ledger := hw ▸ (run_accounted hgenesis txs).inv
  have hsupply : Supplied w.ledger := hw ▸ run_supplied hsupplied txs
  obtain ⟨d₁, plan₁, receipt₁, hran₁⟩ := execute_ok_iff.mp (Exec.transact_ok_iff.mp h₁)
  obtain ⟨d₂, plan₂, receipt₂, hran₂⟩ := execute_ok_iff.mp (Exec.transact_ok_iff.mp h₂)
  obtain ⟨w₁₂, _, hran₁₂, hL₁₂⟩ := second_runs hran₁ hran₂ hinv hmarkets hstates hsigners₁ hsigners₂
    hfunds hreads₂ hsupply
  have hfunds' : a₂.userSourceA.key = a₁.userSourceA.key → ∀ x,
      w.ledger.token? a₂.userSourceA.key = some x →
      args₂.totalDebit + args₁.totalDebit ≤ x.amount.toNat := by
    intro heq x hx
    have hsum := hfunds heq.symm x (heq ▸ hx)
    omega
  obtain ⟨w₂₁, _, hran₂₁, hL₂₁⟩ := second_runs hran₂ hran₁ hinv hmarkets.symm hstates.symm hsigners₂
    hsigners₁ hfunds' hreads₁ hsupply
  have hcomm : w₁₂.ledger = w₂₁.ledger := by
    have happart := apart hran₂ hran₁ hinv hmarkets.symm hstates.symm
    calc w₁₂.ledger = _ := hL₁₂
      _ = _ := congrArg _ hran₁.footprint_eq
      _ = _ := footprint_comm happart
      _ = _ := congrArg _ hran₂.footprint_eq.symm
      _ = w₂₁.ledger := hL₂₁.symm
  obtain ⟨data₁, hdata₁, hreports₁⟩ := hran₁.reports
  obtain ⟨data₂, hdata₂, hreports₂⟩ := hran₂.reports
  obtain ⟨data₁', hdata₁', hreports₂₁⟩ := hran₂₁.reports
  obtain ⟨data₂', hdata₂', hreports₁₂⟩ := hran₁₂.reports
  obtain rfl : data₁ = data₁' := Except.ok.inj (hdata₁.symm.trans hdata₁')
  obtain rfl : data₂ = data₂' := Except.ok.inj (hdata₂.symm.trans hdata₂')
  exact ⟨w₁₂, w₂₁, _, _, _, _, data₁, data₂, Exec.transact_ok_iff.mpr hran₁₂.run,
    Exec.transact_ok_iff.mpr hran₂₁.run, hcomm, hreports₁, hreports₂₁, hreports₂, hreports₁₂⟩

end

namespace Sample

open ProgrammableSolana.Core.Sample

attribute [local instance] Sample.crypto

/-- The engine state of the second market. -/
def secondState : Pubkey := key 17

def issued (supply : UInt64) : Account CoreState :=
  ⟨tokenProgram, false, .mint ⟨none, supply, 6, true, none⟩⟩

def suppliedAccounts : List (Pubkey × Account CoreState) :=
  [(mintA, issued 1000000), (mintB, issued 1000000), (sourceA, tokenAccount mintA 1000000),
    (sourceB, tokenAccount mintB 1000000), (destinationB, tokenAccount mintB 0),
    (engineProgram, program), (engineState, ⟨engineProgram, false, .raw [0]⟩),
    (secondState, ⟨engineProgram, false, .raw [0]⟩), (tokenProgram, program),
    (systemProgram, program)]

def suppliedGenesis : Ledger := .ofList suppliedAccounts

/-- What an engine that counts its calls does with its state. -/
def count (ix : Instruction) (m : AccountMeta) : AccountData CoreState →
    Option (Response config.ID)
  | .raw [n] => some ⟨[.write ix.programId m.pubkey ix.programId false [n + 1]],
      some (ix.programId, Wire.Root.receiptMagic.toList ++ [Wire.probeWireVersion] ++
        (ix.data.drop 9).take 32 ++ (u64LeBytes (n + 1).toUInt64).toList)⟩
  | _ => none

def countingEnv : Env config where
  slot := 50
  stackHeight := 1
  callee ix L := ix.accounts.head?.bind fun m => count ix m (L m.pubkey).data

private theorem countingEnv_reads (program : Pubkey) : ReadsPassed countingEnv.callee program := by
  intro ix L L' _ hread
  show ix.accounts.head?.bind _ = ix.accounts.head?.bind _
  cases hmetas : ix.accounts.head? with
  | none => rfl
  | some m =>
    have heq := hread m (List.mem_of_head? hmetas)
    show count ix m (L m.pubkey).data = count ix m (L' m.pubkey).data
    rw [heq]

/-- Two funded markets with an engine state each. -/
def twoEngines : List (List Op) :=
  [[opOpening market],
    [.initializeMarketDomainV0 { opening otherMarket with engineState := readonly secondState }
      (openingArgs otherMarket)],
    [opDeposit],
    [.depositV0 (depositB otherMarket) ⟨assetBIndexV0, 1000⟩ (.of_onCurve (by decide +kernel))]]

def twoFunded : Core.World := (run Op.step (world suppliedGenesis) twoEngines).1

private theorem twoFunded_eq : twoFunded = (run Op.step (world suppliedGenesis) twoEngines).1 := by
  rw [twoFunded]

/-- The first execution pays into the output vault of the second market. -/
def crossing : ExecuteEngineProbeV0 :=
  { execute market with userDestinationB := writable otherMarket.vaultB }

def otherExecute : ExecuteEngineProbeV0 :=
  { execute otherMarket with engineState := writable secondState }

def opCrossing : Op :=
  .executeEngineProbeV0 countingEnv crossing executeArgs (.of_onCurve (by decide +kernel))

def opOther : Op :=
  .executeEngineProbeV0 countingEnv otherExecute executeArgs (.of_onCurve (by decide +kernel))

end Sample

section Sample

attribute [local instance] Sample.crypto

open Core.Sample

theorem executions_commute_sample : ∃ w₁₂ w₂₁,
    Sample.opOther.step (Sample.opCrossing.handle.run Sample.twoFunded).2 = .ok w₁₂ ∧
    Sample.opCrossing.step (Sample.opOther.handle.run Sample.twoFunded).2 = .ok w₂₁ ∧
    w₁₂.ledger = w₂₁.ledger := by
  have hgenesis : Genesis config (world Sample.suppliedGenesis).ledger := Genesis.ofList (by decide)
  have hsupplied : Supplied (world Sample.suppliedGenesis).ledger :=
    Supplied.ofList (by decide) (by decide +kernel) (by decide +kernel)
  have h₁ : Sample.opCrossing.step Sample.twoFunded =
      .ok (Sample.opCrossing.handle.run Sample.twoFunded).2 :=
    Exec.transact_of_ok (by decide +kernel)
  have h₂ : Sample.opOther.step Sample.twoFunded =
      .ok (Sample.opOther.handle.run Sample.twoFunded).2 := Exec.transact_of_ok (by decide +kernel)
  have hfunds : Sample.twoFunded.ledger.token? sourceA = some ⟨mintA, user, 1000000, none,
      .initialized, none, 0, none⟩ := by
    decide +kernel
  obtain ⟨w₁₂, w₂₁, -, -, -, -, -, -, hw₁₂, hw₂₁, hledger, -⟩ := executions_commute
    (world Sample.suppliedGenesis) hgenesis hsupplied Sample.twoEngines Sample.twoFunded
    Sample.twoFunded_eq Sample.countingEnv Sample.crossing Sample.otherExecute Sample.executeArgs
    Sample.executeArgs (.of_onCurve (by decide +kernel)) (.of_onCurve (by decide +kernel))
    (by decide) (by decide) (Sample.countingEnv_reads _) (Sample.countingEnv_reads _)
    (fun _ x hx => by
      obtain rfl := Option.some.inj (hfunds.symm.trans hx)
      decide +kernel) _ _ h₁ h₂
  exact ⟨w₁₂, w₂₁, hw₁₂, hw₂₁, hledger⟩

end Sample

end ProgrammableSolana.Root
