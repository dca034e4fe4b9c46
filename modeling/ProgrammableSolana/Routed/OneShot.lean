import ProgrammableSolana.Core.Allowance
import ProgrammableSolana.Lib.Charging
import ProgrammableSolana.Routed.Runs

/-! One-shot spending: over a whole run an intent is executed no more often, and for no more, than
the owner of its source approved. -/
namespace ProgrammableSolana.Routed

open ProgrammableSolana.Lib ProgrammableSolana.Solana ProgrammableSolana.Core
open ProgrammableSolana.Lib.Transactions

section Backing

variable [Crypto] {env : Env config} {w w' : Core.World} {source : Pubkey} {u : Unit}

private theorem authorize_backed {a : AuthorizeSpendV0} {args : AuthorizeSpendV0Args}
    (h : (handleAuthorizeSpendV0 env a args).run w = (.ok u, w')) : Backed source w w' := by
  unfold handleAuthorizeSpendV0 at h
  simp only [Exec.bind_ok_iff, Exec.get_ok_iff, Exec.ofExcept_ok_iff,
    Exec.mapError_run_ok_iff] at h
  obtain ⟨_, _, ⟨rfl, rfl⟩, _, _, ⟨-, rfl⟩, _, _, ⟨-, rfl⟩, _, _, ⟨-, rfl⟩, _, w₁, hinvoke, _, _,
    ⟨rfl, rfl⟩, _, _, ⟨-, rfl⟩, hemit⟩ := h
  exact (tokenInvoke_backed hinvoke).trans (emit_backed hemit)

variable {a : ExecuteCallbackAuthenticatedProbeV0} {args : ExecuteCallbackAuthenticatedProbeV0Args}

private theorem invokeEnginePhase_backed {ds : List Wire.CapabilityDescriptor}
    {request : Wire.Routed.EngineRequest} {callback : AccountInfo} {bump : UInt8}
    {receipt : Wire.Routed.EngineReceipt}
    (h : (invokeEnginePhase env a ds request callback bump).run w = (.ok receipt, w')) :
    Backed source w w' := by
  unfold invokeEnginePhase at h
  simp only [Exec.bind_ok_iff, Exec.get_ok_iff, Exec.ofExcept_ok_iff, Exec.mapError_run_ok_iff,
    Prod.exists] at h
  obtain ⟨_, _, ⟨rfl, rfl⟩, _, _, _, ⟨-, rfl⟩, _, _, ⟨-, rfl⟩, _, w₁, hinvoke, _, _, ⟨rfl, rfl⟩, -,
    rfl⟩ := h
  exact invokeSigned_backed hinvoke

private theorem commitPhase_backed {d : EnvelopeData} {i : AuthenticatedIntent}
    {receipt : Wire.Routed.EngineReceipt} {settlementDigest : Hash} {outcome : CommitOutcome}
    (h : (commitPhase env a d args i receipt settlementDigest).run w = (.ok outcome, w')) :
    Backed source w w' := by
  unfold commitPhase at h
  split at h
  · unfold commit at h
    simp only [Exec.bind_ok_iff, Exec.get_ok_iff, Exec.ofExcept_ok_iff, Prod.exists,
      Exec.pure_ok_iff] at h
    obtain ⟨_, _, ⟨rfl, rfl⟩, _, _, _, ⟨-, rfl⟩, _, w₁, hinvoke, _, _, ⟨-, rfl⟩, _, _, ⟨-, rfl⟩, _,
      _, ⟨-, rfl⟩, _, _, ⟨-, rfl⟩, _, _, ⟨-, rfl⟩, -, rfl⟩ := h
    exact invokeEnginePhase_backed hinvoke
  · obtain ⟨-, rfl⟩ := Exec.pure_ok_iff.mp h
    exact .refl _

omit [Crypto] in
private theorem recordExecution_backed {after : EnvelopeData} {p : PreparedExecution}
    {receiptDigest settlementDigest : Hash} {receipt : Wire.Routed.EngineReceipt}
    {s : AcceptedSettlement} {outcome : CommitOutcome}
    (h : (recordExecution a args p receipt receiptDigest s after settlementDigest outcome).run w =
      (.ok u, w')) : Backed source w w' := by
  unfold recordExecution at h
  simp only [Exec.bind_ok_iff, Exec.ofExcept_ok_iff] at h
  obtain ⟨_, w₁, hwrite, count, _, ⟨-, rfl⟩, hemit⟩ := h
  exact (writeAccounted_backed hwrite).trans (emit_backed hemit)

/-- An execution approves nothing itself, and its output transfer is in the log. -/
theorem execute_backed
    (h : (handleExecuteCallbackAuthenticatedProbeV0 env a args).run w = (.ok u, w')) :
    (∀ source, Backed source w w') ∧
      ∃ p, prepareExecution env w.ledger a args = .ok p ∧ ∃ amountOut before,
        Event.token (outputTransfer a.toEnvelope p.d amountOut) [a.domain.key] before ∈
          newEvents w w' := by
  unfold handleExecuteCallbackAuthenticatedProbeV0 settleAuthenticatedIntent at h
  simp only [Exec.bind_ok_iff, Exec.get_ok_iff, Exec.ofExcept_ok_iff, Prod.exists,
    Exec.pure_ok_iff] at h
  obtain ⟨_, _, ⟨rfl, rfl⟩, p, _, ⟨hprepare, rfl⟩, receipt, w₁, hinvoke, _, settlement, _,
    ⟨-, rfl⟩, after, w₂, ⟨_, _, ⟨-, rfl⟩, _, w₂', hsettle, _, _, ⟨-, rfl⟩, rfl, rfl⟩, _, _,
    ⟨-, rfl⟩, outcome, w₃, hcommit, hrecord⟩ := h
  have hengine : ∀ source, Backed source w w₁ := fun _ => invokeEnginePhase_backed hinvoke
  have hrest : ∀ source, Backed source w₂' w' := fun _ =>
    (commitPhase_backed hcommit).trans (recordExecution_backed hrecord)
  constructor
  · exact fun source => ((hengine source).trans (settle_backed hsettle)).trans (hrest source)
  · obtain ⟨es, hes, -⟩ := (hengine a.userSourceA.key).logged
    obtain ⟨es', hes', -⟩ := (hrest a.userSourceA.key).logged
    obtain ⟨transfers, before, hlog⟩ := settle_outputTransfer hsettle
    refine ⟨p, hprepare, (settlement.terms args).amountOut, before, ?_⟩
    have hall : w'.log = w.log ++ (es ++ (transfers ++ (.token (outputTransfer a.toEnvelope p.d
        (settlement.terms args).amountOut) [a.domain.key] before :: es'))) := by
      rw [hes', hlog, hes]
      simp
    rw [newEvents_eq hall]
    simp

/-- What one operation does to the allowances of an account was approved. -/
theorem Op.backed {o : Op} (h : o.step w = .ok w') : Backed source w w' := by
  have h := Exec.transact_ok_iff.mp h
  cases o with
  | initializeMarketDomainV0 a args => exact initialize_backed h
  | depositV0 a args hsigners => exact deposit_backed h
  | authorizeSpendV0 env a args hsigners => exact authorize_backed h
  | executeCallbackAuthenticatedProbeV0 env a args => exact (execute_backed h).1 source
  | external action => exact Action.perform_backed (Exec.mapError_run_ok_iff.mp h)

end Backing

section Spending

variable [Crypto]

/-- The intent a move executes, if it is an execution that debits `source`. -/
def executes? (source : Pubkey) (x : Move Core.World Op) : Option AuthenticatedIntent :=
  match x.op with
  | .executeCallbackAuthenticatedProbeV0 env a args =>
    if a.userSourceA.key = source then
      (prepareExecution env x.before.ledger a args).toOption.map PreparedExecution.intent
    else none
  | _ => none

/-- The intents executed on `source`, oldest first. -/
def executions (source : Pubkey) (moves : List (Move Core.World Op)) : List AuthenticatedIntent :=
  moves.filterMap (executes? source)

/-- What an execution takes from `source`, and the allowance it uses up by that. -/
structure Spends (source : Pubkey) (L L' : Ledger) (i : AuthenticatedIntent) : Prop where
  spendAuthority : canonicalSpendAuthority source i.intentDigest = .ok (i.spendAuthority, i.spendBump)
  delegated : L.delegation source = some (i.spendAuthority, i.totalInputDebit)
  debited : ∃ t t', L.token? source = some t ∧ L'.token? source = some t' ∧
    t'.amount.toNat + i.totalInputDebit.toNat = t.amount.toNat ∧ t'.delegate = none ∧
    t'.delegatedAmount = 0

theorem Spends.cleared {source : Pubkey} {L L' : Ledger} {i : AuthenticatedIntent}
    (h : Spends source L L' i) : L'.delegation source = none := by
  obtain ⟨t, t', -, ht', -, hdelegate, -⟩ := h.debited
  rw [Ledger.delegation_of_token? ht', hdelegate, Option.map_none]

theorem CallbackAuthenticated.spends {env : Env config} {w w₁ w₂ w₃ w' : Core.World}
    {a : ExecuteCallbackAuthenticatedProbeV0} {args : ExecuteCallbackAuthenticatedProbeV0Args}
    {x : Stages} (h : CallbackAuthenticated env w w₁ w₂ w₃ w' a args x) :
    Spends a.userSourceA.key w.ledger w'.ledger x.intent := by
  have hbefore := h.accounts.bound.userSourceA
  have hafter := h.executed.tokens.userSourceA
  have hdebit := h.settled.sourceDebit.amount
  constructor
  · exact h.intent.spendAuthority
  · rw [Ledger.delegation_of_token? hbefore, h.intent.source.delegate,
      h.intent.source.delegatedAmount, Option.map_some]
  · refine ⟨_, _, hbefore, hafter, ?_, h.cleared⟩
    have htotal : (x.settlement.terms args).totalInputDebit = x.intent.totalInputDebit :=
      h.settlement.totalInputDebit
    rw [htotal] at hdebit
    exact hdebit

private theorem executes?_spends {source : Pubkey} {x : Move Core.World Op} {i : AuthenticatedIntent}
    (h : x.op.step x.before = .ok x.after) (hi : executes? source x = some i) :
    Spends source x.before.ledger x.after.ledger i := by
  unfold executes? at hi
  split at hi
  · next env a args hop =>
    rw [hop] at h
    obtain ⟨w₁, w₂, w₃, stages, hx⟩ := execute_ok (Exec.transact_ok_iff.mp h)
    obtain ⟨capability, hprepared⟩ := hx.prepared
    rw [hprepared] at hi
    split at hi
    · next hsource =>
      obtain rfl := Option.some.inj hi
      rw [← hsource]
      exact hx.spends
    · cases hi
  · cases hi

/-- What a move is charged for the allowance it uses up. -/
def charge (f : Weight) (source : Pubkey) (x : Move Core.World Op) : ℕ :=
  match executes? source x with
  | some i => f.of (i.spendAuthority, i.totalInputDebit)
  | none => 0

private theorem charge_paid {f : Weight} {source : Pubkey} {x : Move Core.World Op}
    (h : x.op.step x.before = .ok x.after) :
    Paid (f.standing source) (f.approved source) (charge f source) x := by
  have hbacked : Backed source x.before x.after := Op.backed h
  have hf := hbacked.backed f
  unfold Paid charge
  cases hi : executes? source x with
  | none => simpa using hf
  | some i =>
    have hspends := executes?_spends h hi
    obtain ⟨es, hes, -⟩ := hbacked.logged
    have hbefore : f.standing source x.before = f.of (i.spendAuthority, i.totalInputDebit) := by
      unfold Weight.standing
      rw [hspends.delegated]
      rfl
    have hafter : f.standing source x.after = 0 := by
      unfold Weight.standing
      rw [hspends.cleared]
      rfl
    have happroved : f.approved source x.after = _ := f.approved_append hes
    simp only
    omega

private theorem sum_charge (f : Weight) (source : Pubkey) (moves : List (Move Core.World Op)) :
    (moves.map (charge f source)).sum =
      ((executions source moves).map fun i => f.of (i.spendAuthority, i.totalInputDebit)).sum := by
  induction moves with
  | nil => rfl
  | cons x moves ih =>
    unfold executions at ih ⊢
    rw [List.map_cons, List.sum_cons, ih]
    unfold charge
    cases hi : executes? source x with
    | none => simp [hi]
    | some i => simp [hi]

private theorem spends_of_executed {w : Core.World} {txs : List (List Op)} {source : Pubkey}
    {i : AuthenticatedIntent} (hi : i ∈ executions source (trace Op.step txs w)) :
    canonicalSpendAuthority source i.intentDigest = .ok (i.spendAuthority, i.spendBump) := by
  obtain ⟨x, hx, hxi⟩ := List.mem_filterMap.mp hi
  exact (executes?_spends (trace_isStep x hx) hxi).spendAuthority

/-- An address that spends from `source` for some intent. -/
def IsSpendAuthority (source key : Pubkey) : Prop :=
  ∃ digest bump, canonicalSpendAuthority source digest = .ok (key, bump)

theorem IsSpendAuthority.isPda {source key : Pubkey} (h : IsSpendAuthority source key) :
    IsPda ID key := by
  obtain ⟨digest, bump, hkey⟩ := h
  unfold canonicalSpendAuthority at hkey
  rw [okOr_ok_iff] at hkey
  exact isPda_of_create (createProgramAddress_of_find hkey)

private theorem run_backed (w : Core.World) (txs : List (List Op)) (source : Pubkey) :
    Ordered (Backed source) w (run Op.step w txs).1 (trace Op.step txs w) :=
  trace_ordered Backed.refl (fun _ _ _ => Backed.trans) fun x hx => Op.backed (trace_isStep x hx)

/-- What the executions of a run use up was approved in the run. -/
theorem run_charged (f : Weight) {w : Core.World} (txs : List (List Op)) {source : Pubkey}
    (hstart : f.standing source w = 0) :
    ((executions source (trace Op.step txs w)).map fun i =>
        f.of (i.spendAuthority, i.totalInputDebit)).sum ≤
      ((approvals source (newEvents w (run Op.step w txs).1)).map f.of).sum := by
  have hmoves : ∀ x ∈ trace Op.step txs w,
      Paid (f.standing source) (f.approved source) (charge f source) x :=
    fun x hx => charge_paid (trace_isStep x hx)
  have hpaid := trace_paid_from_nothing hstart hmoves
  obtain ⟨es, hes, -⟩ := (run_backed w txs source).reaches.logged
  have hgranted : f.approved source (run Op.step w txs).1 = _ := f.approved_append hes
  rw [sum_charge, hgranted] at hpaid
  rw [newEvents_eq hes]
  omega

omit [Crypto] in
private theorem standing_eq_zero {f : Weight} {w : Core.World} {source : Pubkey}
    (h : ∀ key amount, w.ledger.delegation source = some (key, amount) → f.of (key, amount) = 0) :
    f.standing source w = 0 := by
  unfold Weight.standing Weight.value
  cases hd : w.ledger.delegation source with
  | none => rfl
  | some p =>
    obtain ⟨key, amount⟩ := p
    exact h key amount hd

/-- One approval, one execution: over any run an intent is executed on a source at most as often as
the owner approved the intent's spend authority there. -/
theorem executions_le_approvals (w : Core.World) (txs : List (List Op)) (source key : Pubkey)
    (digest : Hash) (bump : UInt8) (hkey : canonicalSpendAuthority source digest = .ok (key, bump))
    (hstart : ∀ amount, w.ledger.delegation source ≠ some (key, amount)) :
    (executions source (trace Op.step txs w)).countP (fun i => i.intentDigest = digest) ≤
      (approvals source (newEvents w (run Op.step w txs).1)).countP (fun p => p.1 = key) := by
  have hstanding : (Weight.count key).standing source w = 0 := by
    apply standing_eq_zero
    intro d amount hd
    have hne : d ≠ key := fun heq => hstart amount (heq ▸ hd)
    exact if_neg hne
  have hcharged := run_charged (.count key) txs hstanding
  have hexecuted : (executions source (trace Op.step txs w)).countP (fun i => i.intentDigest = digest) ≤
      (executions source (trace Op.step txs w)).countP fun i => i.spendAuthority = key := by
    apply List.countP_mono_left
    intro i hi hdigest
    have hspend := spends_of_executed hi
    rw [of_decide_eq_true hdigest, hkey, Except.ok.injEq] at hspend
    exact decide_eq_true (Prod.mk.inj hspend).1.symm
  have hcount : ((executions source (trace Op.step txs w)).map fun i =>
      (Weight.count key).of (i.spendAuthority, i.totalInputDebit)).sum = _ :=
    sum_map_one (fun i : AuthenticatedIntent => i.spendAuthority = key) _
  have hcount' : ((approvals source (newEvents w (run Op.step w txs).1)).map
      (Weight.count key).of).sum = _ := sum_map_one (fun p : Pubkey × UInt64 => p.1 = key) _
  rw [hcount, hcount'] at hcharged
  exact hexecuted.trans hcharged

/-- The tokens a move takes from `source`, if it is an execution that debits it. -/
def debit (source : Pubkey) (x : Move Core.World Op) : ℕ :=
  match executes? source x, x.before.ledger.token? source, x.after.ledger.token? source with
  | some _, some t, some t' => t.amount.toNat - t'.amount.toNat
  | _, _, _ => 0

open Classical in
/-- All that executions ever take from a source was approved to spend authorities by its owner. -/
theorem debited_le_approved (w : Core.World) (txs : List (List Op)) (source : Pubkey)
    (hstart : ∀ key amount, w.ledger.delegation source = some (key, amount) →
      ¬ IsSpendAuthority source key) :
    ((trace Op.step txs w).map (debit source)).sum ≤
      (((approvals source (newEvents w (run Op.step w txs).1)).filter fun p =>
        IsSpendAuthority source p.1).map fun p => p.2.toNat).sum := by
  have hstanding : (Weight.amount (IsSpendAuthority source)).standing source w = 0 :=
    standing_eq_zero fun key amount hd => if_neg (hstart key amount hd)
  have hcharged := run_charged (.amount (IsSpendAuthority source)) txs hstanding
  have hdebit : (trace Op.step txs w).map (debit source) =
      (trace Op.step txs w).map (charge (.amount (IsSpendAuthority source)) source) := by
    apply List.map_congr_left
    intro x hx
    unfold debit charge
    cases hi : executes? source x with
    | none => rfl
    | some i =>
      have hspends := executes?_spends (trace_isStep x hx) hi
      obtain ⟨t, t', ht, ht', hamount, -, -⟩ := hspends.debited
      have hauthority : IsSpendAuthority source i.spendAuthority := ⟨_, _, hspends.spendAuthority⟩
      simp only [ht, ht', Weight.amount, if_pos hauthority]
      omega
  rw [hdebit, sum_charge, ← sum_map_filter]
  exact hcharged

/-- Between any two executions that debit one source its owner approved the second one's intent. -/
theorem approved_between (w : Core.World) (txs : List (List Op)) (source : Pubkey)
    (before between after : List (Move Core.World Op)) (x y : Move Core.World Op)
    (i j : AuthenticatedIntent)
    (htrace : trace Op.step txs w = before ++ x :: between ++ y :: after)
    (hx : executes? source x = some i) (hy : executes? source y = some j) :
    (∃ t, x.after.ledger.token? source = some t ∧ t.delegate = none ∧ t.delegatedAmount = 0) ∧
    ∃ op signers ledger t amount ledger',
      Event.token op signers ledger ∈ newEvents x.after y.before ∧
      ledger.token? source = some t ∧ op.Approves source j.spendAuthority t.owner amount ∧
      t.owner ∈ signers ∧ op.apply ledger signers = .ok ledger' := by
  have hpairwise := (run_backed w txs source).pairwise
  have hsteps : ∀ z ∈ trace Op.step txs w, z.op.step z.before = .ok z.after := trace_isStep
  rw [htrace] at hpairwise hsteps
  have hbacked : Backed source x.after y.before := by
    rw [List.append_assoc, List.cons_append] at hpairwise
    have htail := (List.pairwise_append.mp hpairwise).2.1
    exact (List.pairwise_cons.mp htail).1 y (by simp)
  have hspends := executes?_spends (hsteps x (by simp)) hx
  have hspends' := executes?_spends (hsteps y (by simp)) hy
  obtain ⟨t, t', -, ht', -, hcleared⟩ := hspends.debited
  exact ⟨⟨t', ht', hcleared⟩, hbacked.approval hspends.cleared hspends'.delegated⟩

end Spending

section Retention

variable [Crypto] {source : Pubkey} {t : TokenAccount}

/-- An execution takes nothing from an account that is not its source, unless the account's owner
signs. -/
theorem execute_retained {env : Env config} {w w' : Core.World}
    {a : ExecuteCallbackAuthenticatedProbeV0} {args : ExecuteCallbackAuthenticatedProbeV0Args}
    (h : (handleExecuteCallbackAuthenticatedProbeV0 env a args).run w = (.ok (), w'))
    (ht : w.ledger.token? source = some t) (howner : Unissued source t.owner (newEvents w w'))
    (hsource : a.userSourceA.key ≠ source) : Retained w'.ledger source t := by
  obtain ⟨w₁, w₂, w₃, x, hx⟩ := execute_ok h
  obtain ⟨-, p, hp, amountOut, before, hmem⟩ := execute_backed h
  obtain ⟨capability, hprepared⟩ := hx.prepared
  rw [hprepared, Except.ok.injEq] at hp
  have hexecuted := hx.executed
  have hbound := hx.accounts.bound
  have hcredited : ∀ {y y' : TokenAccount} {n : ℕ}, w.ledger.token? source = some y →
      w'.ledger.token? source = some y' → Credited y y' n → Retained w'.ledger source t := by
    intro y y' n hy hy' hcredit
    obtain rfl : t = y := Option.some.inj (ht.symm.trans hy)
    refine ⟨y'.amount, t.state, ?_, ?_⟩
    · rw [hy', hcredit.rest]
    · rw [UInt64.le_iff_toNat_le, hcredit.amount]
      omega
  by_cases hset : source ∈ a.toEnvelope.tokenKeys
  · simp only [Envelope.tokenKeys, List.mem_cons, List.not_mem_nil, or_false] at hset
    rcases hset with hs | hs | hs | hs | hs
    · exact absurd hs.symm hsource
    · exact hcredited (hs ▸ hbound.userDestinationB) (hs ▸ hexecuted.tokens.userDestinationB)
        hx.settled.destinationCredit
    · exact hcredited (hs ▸ hbound.vaultA) (hs ▸ hexecuted.tokens.vaultA) hx.settled.vaultACredit
    · obtain ⟨-, -, hdomain⟩ := hx.settled.vaultBDebit.undelegated hx.accounts.profiled.vaultB.delegate
      rw [hs, hbound.vaultB, Option.some.injEq] at ht
      rw [← ht, hdomain] at howner
      exact absurd rfl (howner.authority hmem (by simp [outputTransfer, TokenOp.writes, hs]))
    · exact hcredited (hs ▸ hbound.feeVault) (hs ▸ hexecuted.tokens.feeVault)
        hx.settled.feeVaultCredit
  · have hframe := hexecuted.token_frame (Ledger.token?_eq_some.mp ht).1 hset
    exact .refl ((Ledger.token?_congr hframe).trans ht)

/-- An operation takes nothing from an account delegated to the Core at most, unless the account's
owner or close authority signs or the operation executes on it. -/
theorem Op.retained {o : Op} {w w' : Core.World} (h : o.step w = .ok w')
    (ht : w.ledger.token? source = some t) (hdelegate : ∀ d, t.delegate = some d → IsPda ID d)
    (howner : Unissued source t.owner (newEvents w w'))
    (hclose : ∀ c, t.closeAuthority = some c → Unissued source c (newEvents w w'))
    (hexecutes : executes? source ⟨w, o, w'⟩ = none) : Retained w'.ledger source t := by
  have h := Exec.transact_ok_iff.mp h
  cases o with
  | initializeMarketDomainV0 a args =>
    obtain ⟨bumps, hinit⟩ := initialize_ok h
    have hframe := hinit.frame source fun hmem => by
      have hsystem := (hinit.unallocated source hmem).1
      rw [(Ledger.token?_eq_some.mp ht).1] at hsystem
      exact absurd hsystem (by decide)
    exact .refl ((Ledger.token?_congr hframe).trans ht)
  | depositV0 a args hsigners =>
    obtain ⟨d, hdeposit⟩ := deposit_ok h
    have hprovider := hsigners a.provider (by simp [DepositV0.infos]) hdeposit.signed
    exact deposit_retained h ht (fun hd => hprovider (hdelegate _ hd)) howner hclose
  | authorizeSpendV0 env a args hsigners =>
    obtain ⟨x, i, mint, decimals, e, hauth, hlog, -⟩ := authorize_ok h
    have hne : source ≠ a.source.key := by
      rintro rfl
      obtain rfl : t = x := Option.some.inj (ht.symm.trans hauth.source)
      rw [newEvents_eq hlog, hauth.owner] at howner
      exact howner.authority (List.mem_cons_self ..) (by simp [TokenOp.writes]) rfl
    exact .refl ((Ledger.token?_congr (hauth.frame hne)).trans ht)
  | executeCallbackAuthenticatedProbeV0 env a args =>
    apply execute_retained h ht howner
    intro hsource
    obtain ⟨w₁, w₂, w₃, x, hx⟩ := execute_ok h
    obtain ⟨capability, hprepared⟩ := hx.prepared
    simp [executes?, hsource, hprepared, Except.toOption] at hexecutes
  | external action =>
    rcases Action.perform_ok (Exec.mapError_run_ok_iff.mp h) with
      ⟨program, key, newOwner, executable, bytes, -, -, hp, -, hkey, -, rfl⟩ |
      ⟨op, external, ledger, -, -, -, hop, rfl⟩
    · have hne : source ≠ key := by
        rintro rfl
        exact hp (hkey.symm.trans (Ledger.token?_eq_some.mp ht).1)
      exact .refl ((Ledger.token?_congr (Function.update_of_ne hne _ _)).trans ht)
    · obtain ⟨signers, hsigners⟩ : ∃ keys, keys =
          external.map ExternalSigner.key ++ (anyPrivileges ID).signers := ⟨_, rfl⟩
      rw [← hsigners] at howner hclose hop
      have hmem : Event.token op signers w.ledger ∈ newEvents w
          ⟨ledger, w.returnData, w.log ++ [.token op signers w.ledger]⟩ := by
        rw [newEvents_eq rfl]
        exact List.mem_cons_self ..
      refine TokenOp.apply_retained hop ht (howner.authority hmem) (fun d hd heq => ?_)
        fun c hc => (hclose c hc).authority hmem
      have hsigned := TokenOp.apply_signed hop heq
      rw [hsigners] at hsigned
      simp only [anyPrivileges, List.append_nil, List.mem_map] at hsigned
      obtain ⟨s, -, rfl⟩ := hsigned
      exact s.notPda (hdelegate _ hd)

/-- An approved intent stays executable: over a run in which neither the owner nor the close
authority of a source signs for it there and no execution debits it, its delegate stays as it is and its
balance does not fall, whoever does what. -/
theorem delegation_undisturbed (w : Core.World) (txs : List (List Op)) (source : Pubkey)
    (t : TokenAccount) (ht : w.ledger.token? source = some t)
    (hdelegate : ∀ key, t.delegate = some key → IsSpendAuthority source key)
    (howner : Unissued source t.owner (newEvents w (run Op.step w txs).1))
    (hclose : ∀ c, t.closeAuthority = some c → Unissued source c (newEvents w (run Op.step w txs).1))
    (hexecutions : executions source (trace Op.step txs w) = []) :
    ∃ t', (run Op.step w txs).1.ledger.token? source = some t' ∧ t'.owner = t.owner ∧
      t'.delegate = t.delegate ∧ t'.delegatedAmount = t.delegatedAmount ∧ t.amount ≤ t'.amount := by
  have hordered := run_backed w txs source
  have hkept : Retained (run Op.step w txs).1.ledger source t := by
    refine trace_invariant (P := fun w : Core.World => Retained w.ledger source t) (.refl ht) ?_
    intro x hx ⟨amount, state, hat, hle⟩
    have hevents : newEvents x.before x.after ⊆ newEvents w (run Op.step w txs).1 := by
      have hmove : Backed source x.before x.after := Op.backed (trace_isStep x hx)
      have hearlier := hordered.later x hx
      rw [hearlier.newEvents_append (hmove.trans (hordered.earlier x hx)),
        hmove.newEvents_append (hordered.earlier x hx)]
      intro e he
      simp [he]
    have hnone : executes? source x = none := by
      cases hi : executes? source x with
      | none => rfl
      | some i =>
        have hmem : i ∈ executions source (trace Op.step txs w) := List.mem_filterMap.mpr ⟨x, hx, hi⟩
        rw [hexecutions] at hmem
        cases hmem
    obtain ⟨amount', state', hat', hle'⟩ := Op.retained (trace_isStep x hx) hat
      (fun key hkey => (hdelegate key hkey).isPda) (howner.mono hevents)
      (fun c hc => (hclose c hc).mono hevents) hnone
    exact ⟨amount', state', hat', UInt64.le_trans hle hle'⟩
  obtain ⟨amount, state, hat, hle⟩ := hkept
  exact ⟨_, hat, rfl, rfl, rfl, hle⟩

end Retention

namespace Sample

open ProgrammableSolana.Core.Sample ProgrammableSolana.Engines
open ProgrammableSolana.Wire.Routed (timingSingle phaseTransition)

def repeatExecution : Hash :=
  ⟨[67, 213, 185, 99, 205, 17, 34, 181, 166, 119, 41, 151, 74, 200, 189, 150, 226, 57, 169, 198,
    126, 224, 117, 116, 30, 162, 194, 88, 132, 32, 242, 68], rfl⟩

def repeatReceipt : Hash :=
  ⟨[254, 96, 4, 186, 67, 146, 74, 179, 72, 250, 49, 30, 49, 135, 108, 26, 25, 57, 223, 100, 45,
    117, 226, 131, 198, 48, 149, 199, 181, 97, 121, 206], rfl⟩

def repeatSettlement : Hash :=
  ⟨[156, 201, 106, 6, 59, 251, 163, 216, 4, 220, 126, 147, 238, 26, 73, 184, 229, 168, 118, 146,
    250, 103, 13, 103, 142, 25, 50, 240, 113, 143, 246, 93], rfl⟩

/-- What the engine is asked when the intent of the sample is executed once more, after another
deposit. -/
def repeatBinding : Wire.Routed.ExecutionBinding :=
  { executionBinding single phaseTransition (Bytes.zero 32) single.authorized with
    accountedInputBefore := 1100, accountedOutputBefore := 1910, accountedFeeBefore := 1
    preSequence := 1 }

def repeatAfter : EnvelopeData :=
  { data with
    domain := { data.domain with accountedA := 1100, accountedB := 1910 }
    feeLedger := { data.feeLedger with accountedFeeA := 1 }
    userSourceA := { data.userSourceA with amount := 998798 }
    userDestinationB := { data.userDestinationB with amount := 247 }
    vaultA := { data.vaultA with amount := 1200 }
    vaultB := { data.vaultB with amount := 1753 }
    feeVault := { data.feeVault with amount := 2 } }

@[reducible]
def repeatCrypto : Crypto := .ofKnown (digests config market ++ executionDigests timingSingle single ++
  known Wire.Routed.executionHashDomain (Wire.Routed.encodeExecutionBinding repeatBinding)
    repeatExecution ++
  known Wire.Routed.receiptHashDomain (Wire.Routed.encodeReceipt
    ⟨phaseTransition, single.intent, repeatExecution, 157, 2⟩) repeatReceipt ++
  known Wire.Routed.settlementHashDomain (Wire.Routed.encodeSettlementBinding
    (settlementBinding repeatAfter (executeArgs timingSingle single) ⟨1, 101, 157, 1200, 1753, 2⟩
      single.intent repeatExecution repeatReceipt)) repeatSettlement) [user]

attribute [local instance] repeatCrypto

def repeatEnv : Env config where
  slot := 50
  stackHeight := 1
  callee := RoutedPlan.respond fun _ _ => none

def opRepeatDeposit : Op :=
  .depositV0 (depositB market) ⟨assetBIndexV0, 1000⟩ (.of_onCurve (by decide +kernel))

private theorem repeat_signed : SignedOutside ID (authorize single).infos := by
  apply SignedOutside.of_onCurve
  simp only [AuthorizeSpendV0.infos, authorize, List.append_nil, List.mem_cons, List.not_mem_nil,
    or_false]
  rintro info (rfl | rfl | rfl | rfl | rfl) hsigner
  · decide +kernel
  all_goals cases hsigner

def opRepeatAuthorize : Op :=
  .authorizeSpendV0 repeatEnv (authorize single) (wireIntent timingSingle single) repeat_signed

def opRepeatExecute (expectedEngineSequence : UInt64) : Op :=
  .executeCallbackAuthenticatedProbeV0 repeatEnv (execute single)
    { executeArgs timingSingle single with expectedEngineSequence }

/-- Up to the first authorization of the intent. -/
def repeatOpening : List (List Op) :=
  [[.initializeMarketDomainV0 opening (openingArgs market)],
    [.depositV0 depositA ⟨assetAIndexV0, 1000⟩ (.of_onCurve (by decide +kernel)), opRepeatDeposit],
    [opRepeatAuthorize]]

/-- The intent is executed, authorized once more and executed once more. -/
def repeatTxs : List (List Op) :=
  repeatOpening ++ [[opRepeatExecute 0], [opRepeatDeposit], [opRepeatAuthorize], [opRepeatExecute 1]]

def repeatGenesis : Core.World := world (genesis timingSingle RoutedPlan.modeAccept)

end Sample

section Sample

attribute [local instance] Sample.repeatCrypto

open Core.Sample Sample

private theorem repeat_moves : (trace Op.step repeatTxs repeatGenesis).map (fun x =>
      (debit sourceA x, (executes? sourceA x).map fun i => (i.intentDigest, i.spendAuthority))) =
    [(0, none), (0, none), (0, none), (0, none), (101, some (single.intent, single.spend)),
      (0, none), (0, none), (101, some (single.intent, single.spend))] := by
  decide +kernel

private theorem repeat_executes : (trace Op.step repeatTxs repeatGenesis).map (fun x =>
      (executes? sourceA x).map fun i => (i.intentDigest, i.spendAuthority)) =
    [none, none, none, none, some (single.intent, single.spend), none, none,
      some (single.intent, single.spend)] := by
  have h := congrArg (List.map Prod.snd) repeat_moves
  rw [List.map_map] at h
  exact h

private theorem repeat_start : repeatGenesis.ledger.delegation sourceA = none ∧
    canonicalSpendAuthority sourceA single.intent = .ok (single.spend, 255) := by
  decide +kernel

theorem executions_le_approvals_sample : 2 ≤ (approvals sourceA
    (newEvents repeatGenesis (run Op.step repeatGenesis repeatTxs).1)).countP fun p =>
      p.1 = single.spend := by
  obtain ⟨hstart, hkey⟩ := repeat_start
  have h := executions_le_approvals repeatGenesis repeatTxs sourceA single.spend single.intent 255
    hkey (fun amount => by rw [hstart]; exact Option.some_ne_none _ |>.symm)
  have hexecuted : (executions sourceA (trace Op.step repeatTxs repeatGenesis)).map
      AuthenticatedIntent.intentDigest = [single.intent, single.intent] := by
    have hmoves := congrArg (List.filterMap fun p => p.map Prod.fst) repeat_executes
    rw [List.filterMap_map] at hmoves
    unfold executions
    rw [List.map_filterMap]
    simp only [Function.comp_def, Option.map_map] at hmoves
    exact hmoves
  have hcount : (executions sourceA (trace Op.step repeatTxs repeatGenesis)).countP
      (fun i => i.intentDigest = single.intent) = 2 := by
    have hmapped := congrArg (List.countP fun d => d = single.intent) hexecuted
    rw [List.countP_map] at hmapped
    simpa [Function.comp_def] using hmapped
  rwa [hcount] at h

open Classical in
theorem debited_le_approved_sample : 202 ≤ (((approvals sourceA
    (newEvents repeatGenesis (run Op.step repeatGenesis repeatTxs).1)).filter fun p =>
      IsSpendAuthority sourceA p.1).map fun p => p.2.toNat).sum := by
  obtain ⟨hstart, -⟩ := repeat_start
  have h := debited_le_approved repeatGenesis repeatTxs sourceA
    (fun key amount hd => by rw [hstart] at hd; cases hd)
  have hsum : ((trace Op.step repeatTxs repeatGenesis).map (debit sourceA)).sum = 202 := by
    have hmoves := congrArg (fun l => (l.map Prod.fst).sum) repeat_moves
    rw [List.map_map] at hmoves
    exact hmoves
  rwa [hsum] at h

private theorem split_of_map {α β : Type} {f : α → Option β} {l : List α} {a b : β}
    (before between : List (Option β))
    (h : l.map f = before ++ some a :: between ++ [some b]) :
    ∃ xs x ys y, l = xs ++ x :: ys ++ [y] ∧ f x = some a ∧ f y = some b := by
  obtain ⟨l₁, l₂, rfl, h₁, h₂⟩ := List.map_eq_append_iff.mp h
  obtain ⟨xs, l₃, rfl, -, h₃⟩ := List.map_eq_append_iff.mp h₁
  obtain ⟨x, ys, rfl, hx, -⟩ := List.map_eq_cons_iff.mp h₃
  obtain ⟨y, l₄, rfl, hy, h₄⟩ := List.map_eq_cons_iff.mp h₂
  obtain rfl := List.map_eq_nil_iff.mp h₄
  exact ⟨xs, x, ys, y, rfl, hx, hy⟩

theorem approved_between_sample : ∃ before between : List (Move Core.World Op), ∃ x y,
    trace Op.step repeatTxs repeatGenesis = before ++ x :: between ++ [y] ∧
    ∃ op signers ledger t amount, Event.token op signers ledger ∈ newEvents x.after y.before ∧
      ledger.token? sourceA = some t ∧ op.Approves sourceA single.spend t.owner amount ∧
      t.owner ∈ signers := by
  obtain ⟨before, x, between, y, htrace, hx, hy⟩ :=
    split_of_map [none, none, none, none] [none, none] repeat_executes
  obtain ⟨i, hi, -⟩ := Option.map_eq_some_iff.mp hx
  obtain ⟨j, hj, hspend⟩ := Option.map_eq_some_iff.mp hy
  obtain ⟨-, op, signers, ledger, t, amount, ledger', hmem, ht, hop, hsigned, -⟩ :=
    approved_between repeatGenesis repeatTxs sourceA before between [] x y i j htrace hi hj
  rw [(Prod.mk.inj hspend).2] at hop
  exact ⟨before, between, x, y, htrace, op, signers, ledger, t, amount, hmem, ht, hop,
    hsigned⟩

/-- Once the intent is authorized the user deposits from another account. -/
theorem delegation_undisturbed_sample : ∃ t',
    (run Op.step (run Op.step repeatGenesis repeatOpening).1 [[opRepeatDeposit]]).1.ledger.token?
      sourceA = some t' ∧ t'.delegate = some single.spend ∧ t'.delegatedAmount = 101 := by
  obtain ⟨-, hkey⟩ := repeat_start
  have ht : (run Op.step repeatGenesis repeatOpening).1.ledger.token? sourceA =
      some (delegated Sample.data.userSourceA single.spend 101) := by
    decide +kernel
  have hclose : (delegated Sample.data.userSourceA single.spend 101).closeAuthority = none := rfl
  obtain ⟨t', ht', -, hdelegate, hamount, -⟩ := delegation_undisturbed
    (run Op.step repeatGenesis repeatOpening).1 [[opRepeatDeposit]] sourceA _ ht
    (fun key hd => ⟨single.intent, 255, Option.some.inj hd ▸ hkey⟩)
    (by decide +kernel) (fun c hc => by rw [hclose] at hc; cases hc)
    (List.eq_nil_of_length_eq_zero (by decide +kernel))
  exact ⟨t', ht', hdelegate, hamount⟩

end Sample

end ProgrammableSolana.Routed
