import ProgrammableSolana.Core.DepositEffect
import ProgrammableSolana.Core.Initialize
import ProgrammableSolana.Core.Settlement
import ProgrammableSolana.Solana.Allowance

/-! What the instructions of a Core do to allowances: nothing that was not approved. -/
namespace ProgrammableSolana.Core

open ProgrammableSolana.Lib ProgrammableSolana.Solana

section

variable {source : Pubkey} {w w' : World} {u : Unit}

private theorem setState_backed {key : Pubkey} {s : CoreState} :
    Backed source w { w with ledger := w.ledger.setState key s } := by
  refine .of_erased rfl (fun k hk => Ledger.setData_of_ne hk _) ?_
  simp [Ledger.token?, Ledger.setState]

private theorem writeState_backed {key : Pubkey} {s : CoreState}
    (h : (writeState key s).run w = (.ok u, w')) : Backed source w w' := by
  unfold writeState at h
  rw [Exec.modify_ok_iff] at h
  rw [← h]
  exact setState_backed

theorem emit_backed {e : CoreEvent} (h : (emit e).run w = (.ok u, w')) : Backed source w w' := by
  unfold emit at h
  rw [Exec.modify_ok_iff] at h
  rw [← h]
  exact .of_unchanged rfl (.emitted e) rfl

private theorem createAccount_backed {info : AccountInfo} {owner : Pubkey} {space : ℕ}
    (h : (createAccount info owner space).run w = (.ok u, w')) : Backed source w w' := by
  simp only [createAccount, Exec.bind_ok_iff, Exec.ensure_ok_iff, Exec.get_ok_iff,
    Exec.modify_ok_iff] at h
  obtain ⟨_, _, ⟨-, rfl⟩, _, _, ⟨rfl, rfl⟩, _, _, ⟨-, rfl⟩, rfl⟩ := h
  refine .of_erased rfl (fun k hk => Ledger.assign_of_ne hk _ _) ?_
  simp [Ledger.token?]

variable [Crypto] {cfg : Config}

private theorem initPda_backed {info : AccountInfo} {seeds : List (List UInt8)} {owner : Pubkey}
    {space : ℕ} {bump : UInt8} (h : (initPda cfg info seeds owner space).run w = (.ok bump, w')) :
    Backed source w w' := by
  simp only [initPda, Exec.bind_ok_iff, Exec.ensure_ok_iff, Exec.ofExcept_ok_iff,
    Exec.pure_ok_iff, Prod.exists] at h
  obtain ⟨_, _, _, ⟨-, rfl⟩, _, _, ⟨-, rfl⟩, _, _, hcreate, -, rfl⟩ := h
  exact createAccount_backed hcreate

private theorem initTokenAccount_backed {caller : List AccountInfo} {info : AccountInfo}
    {seeds : List (List UInt8)} {mint authority : Pubkey} {bump : UInt8}
    (h : (initTokenAccount cfg caller info seeds mint authority).run w = (.ok bump, w')) :
    Backed source w w' := by
  simp only [initTokenAccount, Exec.bind_ok_iff, Exec.mapError_run_ok_iff, Exec.pure_ok_iff] at h
  obtain ⟨_, w₁, hinit, _, _, hop, -, rfl⟩ := h
  exact (initPda_backed hinit).trans (tokenInvoke_backed hop)

private theorem initAccounts_backed {a : InitializeMarketDomainV0} {args : InitializeMarketDomainV0Args}
    {bumps : InitializeMarketDomainV0Bumps} (h : (initAccounts cfg a args).run w = (.ok bumps, w')) :
    Backed source w w' := by
  simp only [initAccounts, Exec.bind_ok_iff, Exec.pure_ok_iff] at h
  obtain ⟨_, w₁, h₁, _, w₂, h₂, _, w₃, h₃, _, w₄, h₄, _, w₅, h₅, _, w₆, h₆, -, rfl⟩ := h
  have hstate : Backed source w w₃ :=
    ((initPda_backed h₁).trans (initPda_backed h₂)).trans (initPda_backed h₃)
  have hvaults : Backed source w₃ w₅ :=
    (initTokenAccount_backed h₄).trans (initTokenAccount_backed h₅)
  exact (hstate.trans hvaults).trans (initTokenAccount_backed h₆)

theorem initialize_backed {a : InitializeMarketDomainV0} {args : InitializeMarketDomainV0Args}
    (h : (handleInitializeMarketDomainV0 cfg a args).run w = (.ok u, w')) : Backed source w w' := by
  simp only [handleInitializeMarketDomainV0, Exec.bind_ok_iff, Exec.get_ok_iff, Exec.ofExcept_ok_iff,
    Prod.exists] at h
  obtain ⟨_, _, ⟨rfl, rfl⟩, _, _, _, ⟨-, rfl⟩, bumps, w₁, hinit, _, _, ⟨-, rfl⟩, _, _, ⟨-, rfl⟩, _,
    w₂, hmarket, _, w₃, hdomain, _, w₄, hfee, hemit⟩ := h
  have hstates : Backed source w₁ w₄ :=
    ((writeState_backed hmarket).trans (writeState_backed hdomain)).trans (writeState_backed hfee)
  exact ((initAccounts_backed hinit).trans hstates).trans (emit_backed hemit)

theorem deposit_backed {a : DepositV0} {args : DepositV0Args}
    (h : (handleDepositV0 cfg a args).run w = (.ok u, w')) : Backed source w w' := by
  simp only [handleDepositV0, Exec.bind_ok_iff, Exec.get_ok_iff, Exec.ofExcept_ok_iff,
    Exec.mapError_run_ok_iff] at h
  obtain ⟨_, _, ⟨rfl, rfl⟩, d, _, ⟨-, rfl⟩, _, _, ⟨-, rfl⟩, _, w₁, hinvoke, _, _, ⟨rfl, rfl⟩, _, _,
    ⟨-, rfl⟩, _, _, ⟨-, rfl⟩, _, w₂, hstore, hemit⟩ := h
  rw [Exec.modify_ok_iff] at hstore
  have hstored : Backed source w₁ w₂ := hstore ▸ setState_backed
  exact ((tokenInvoke_backed hinvoke).trans hstored).trans (emit_backed hemit)

/-- A deposit takes from no account but one its provider signs for. -/
theorem deposit_retained {a : DepositV0} {args : DepositV0Args} {t : TokenAccount}
    (h : (handleDepositV0 cfg a args).run w = (.ok u, w')) (ht : w.ledger.token? source = some t)
    (hdelegate : t.delegate ≠ some a.provider.key) (howner : Unissued source t.owner (newEvents w w'))
    (hclose : ∀ c, t.closeAuthority = some c → Unissued source c (newEvents w w')) :
    Retained w'.ledger source t := by
  simp only [handleDepositV0, Exec.bind_ok_iff, Exec.get_ok_iff, Exec.ofExcept_ok_iff,
    Exec.mapError_run_ok_iff] at h
  obtain ⟨_, _, ⟨rfl, rfl⟩, d, _, ⟨hload, rfl⟩, _, _, ⟨hvalid, rfl⟩, _, w₁, hinvoke, _, _, ⟨rfl, rfl⟩,
    _, _, ⟨-, rfl⟩, domain, _, ⟨-, rfl⟩, _, w₂, hstore, hemit⟩ := h
  rw [Exec.modify_ok_iff] at hstore
  have hrest : Backed source w₁ w' :=
    (hstore ▸ setState_backed : Backed source w₁ w₂).trans (emit_backed hemit)
  obtain ⟨-, hop, -, hlog⟩ := tokenInvoke_ok hinvoke
  have hmem : Event.token (.transferChecked a.providerSource.key a.mint.key a.domainVault.key
      a.provider.key args.amount d.mint.decimals) [a.provider.key] w.ledger ∈ newEvents w w' := by
    rw [(tokenInvoke_backed hinvoke).newEvents_append hrest, newEvents_eq hlog]
    exact List.mem_append_left _ (List.mem_singleton.mpr rfl)
  have hmoved : Retained w₁.ledger source t := by
    apply TokenOp.apply_retained hop ht (howner.authority hmem)
    · intro key hkey heq
      apply hdelegate
      rw [hkey]
      exact heq.symm
    · exact fun c hc => (hclose c hc).authority hmem
  have hdomain : (w₁.ledger a.domain.key).owner ≠ tokenProgram := by
    rw [(processTransfer_sameOwnership hop).owner,
      (Ledger.state?_eq_some.mp (validateDeposit_ok hload hvalid).1.domain).1]
    exact cfg.ID_ne_token
  have hledger : w'.ledger = w₁.ledger.setState a.domain.key (.domain domain) := by
    unfold emit at hemit
    rw [Exec.modify_ok_iff] at hemit
    rw [← hemit, ← hstore]
  obtain ⟨amount, state, hL, hle⟩ := hmoved
  refine ⟨amount, state, ?_, hle⟩
  rw [hledger, Ledger.token?_setState hdomain, hL]

theorem settle_backed {caller : List AccountInfo} {e : Envelope} {d after : EnvelopeData}
    {authority : Pubkey} {signers : List Pubkey} {t : SettleTerms}
    (h : (settle cfg caller e d authority signers t).run w = (.ok after, w')) :
    Backed source w w' := by
  simp only [settle, Exec.bind_ok_iff, Exec.mapError_run_ok_iff, Exec.ofExcept_ok_iff,
    Exec.get_ok_iff, Exec.pure_ok_iff] at h
  obtain ⟨_, w₁, h₁, _, w₂, h₂, _, _, ⟨-, rfl⟩, _, w₃, h₃, _, _, ⟨rfl, rfl⟩, _, _, ⟨-, rfl⟩, _, _,
    ⟨-, rfl⟩, -, rfl⟩ := h
  exact ((tokenInvoke_backed h₁).trans (tokenInvoke_backed h₂)).trans (tokenInvoke_backed h₃)

/-- The third transfer of a settlement, which the market's domain signs for. -/
def outputTransfer (e : Envelope) (d : EnvelopeData) (amountOut : UInt64) : TokenOp :=
  .transferChecked e.vaultB.key e.mintB.key e.userDestinationB.key e.domain.key amountOut
    d.mintB.decimals

theorem settle_outputTransfer {caller : List AccountInfo} {e : Envelope} {d after : EnvelopeData}
    {authority : Pubkey} {signers : List Pubkey} {t : SettleTerms}
    (h : (settle cfg caller e d authority signers t).run w = (.ok after, w')) :
    ∃ es before, w'.log =
      w.log ++ es ++ [.token (outputTransfer e d t.amountOut) [e.domain.key] before] := by
  simp only [settle, Exec.bind_ok_iff, Exec.mapError_run_ok_iff, Exec.ofExcept_ok_iff,
    Exec.get_ok_iff, Exec.pure_ok_iff] at h
  obtain ⟨_, w₁, h₁, _, w₂, h₂, _, _, ⟨-, rfl⟩, _, w₃, h₃, _, _, ⟨rfl, rfl⟩, _, _, ⟨-, rfl⟩, _, _,
    ⟨-, rfl⟩, -, rfl⟩ := h
  obtain ⟨-, -, -, hlog₁⟩ := tokenInvoke_ok h₁
  obtain ⟨-, -, -, hlog₂⟩ := tokenInvoke_ok h₂
  obtain ⟨-, -, -, hlog₃⟩ := tokenInvoke_ok h₃
  rw [hlog₁, List.append_assoc] at hlog₂
  rw [hlog₂] at hlog₃
  exact ⟨_, w₂.ledger, hlog₃⟩

omit [Crypto] in
theorem writeAccounted_backed {e : Envelope} {d : EnvelopeData}
    {accountedA accountedB accountedFeeA : UInt64}
    (h : (writeAccounted e d accountedA accountedB accountedFeeA).run w = (.ok u, w')) :
    Backed source w w' := by
  unfold writeAccounted at h
  rw [Exec.modify_ok_iff] at h
  have hdomain : Backed source w ⟨w.ledger.setState e.domain.key
      (.domain { d.domain with accountedA, accountedB }), w.returnData, w.log⟩ := setState_backed
  rw [← h]
  exact hdomain.trans setState_backed

end

end ProgrammableSolana.Core
