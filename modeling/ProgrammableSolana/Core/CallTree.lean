import ProgrammableSolana.Core.Containment
import ProgrammableSolana.Solana.Submitted

/-! Settling and recording an execution in a tree of calls: no program is called but the native ones, and
only accounts of the Core and of the Token program change. -/
namespace ProgrammableSolana.Core

open ProgrammableSolana.Lib ProgrammableSolana.Solana

section Traced

variable [Crypto] {cfg : Config} {programId : Pubkey} {callee : Callee CoreState programId}

theorem settle_traced (caller : List AccountInfo) (e : Envelope)
    (d : EnvelopeData) (sourceAuthority : Pubkey) (sourceSigners : List Pubkey) (t : SettleTerms) :
    (settle cfg caller e d sourceAuthority sourceSigners t).Carries (Traced callee) := by
  unfold settle
  apply Exec.Carries.bind Traced.trans ((tokenInvoke_traced _ _ _ _).mapError _)
  intro _
  apply Exec.Carries.bind Traced.trans ((tokenInvoke_traced _ _ _ _).mapError _)
  intro _
  apply Exec.carries_ofExcept_bind
  intro domainSigner
  apply Exec.Carries.bind Traced.trans ((tokenInvoke_traced _ _ _ _).mapError _)
  intro _
  apply Exec.carries_get_bind
  intro w
  apply Exec.carries_ofExcept_bind
  intro after
  apply Exec.carries_ofExcept_bind
  intro _
  exact Exec.carries_pure .refl _

theorem writeAccounted_traced (e : Envelope) (d : EnvelopeData)
    (a b feeA : UInt64) : (writeAccounted e d a b feeA).Carries (Traced callee) := by
  apply Exec.carries_modify
  intro w
  exact .of_quiet rfl (.inl rfl)

theorem emit_traced (event : CoreEvent) :
    (emit event).Carries (Traced callee) := by
  apply Exec.carries_modify
  intro w
  exact .of_quiet (by simp) (.inl rfl)

end Traced

section OwnSteps

variable {p : Pubkey} {e : Envelope} {d after : EnvelopeData}

theorem Settled.ownStep {L L' : Ledger} {authority : Pubkey} {t : SettleTerms}
    (h : Settled L L' e d after authority t) (htokens : TokensAt L e d) : OwnStep p L L' := by
  apply OwnStep.of_owned
  intro k
  by_cases hk : k ∈ e.tokenKeys
  · right
    obtain ⟨x, hx⟩ := htokens.token_of_mem hk
    obtain ⟨x', hx'⟩ := h.tokens.token_of_mem hk
    have howner := (Ledger.token?_eq_some.mp hx).1
    have howner' := (Ledger.token?_eq_some.mp hx').1
    refine ⟨howner'.trans howner.symm, .inr ?_⟩
    rw [howner]
    exact .inl rfl
  · left
    exact h.frame k hk

theorem accountedLedger_ownStep {L : Ledger} (hdomain : (L e.domain.key).owner = p)
    (hfee : (L e.feeLedger.key).owner = p) (a b feeA : UInt64) :
    OwnStep p L (accountedLedger L e d a b feeA) := by
  apply OwnStep.of_owned
  intro k
  have howner : (accountedLedger L e d a b feeA k).owner = (L k).owner := by
    unfold accountedLedger Ledger.setState
    rw [Ledger.setData_owner, Ledger.setData_owner]
  by_cases hd : k = e.domain.key
  · right
    exact ⟨howner, .inl (hd ▸ hdomain)⟩
  · by_cases hf : k = e.feeLedger.key
    · right
      exact ⟨howner, .inl (hf ▸ hfee)⟩
    · left
      let post : PostAccounted := ⟨a, b, feeA⟩
      have hframe : accountedLedger L e d post.a post.b post.feeA k = L k :=
        accountedLedger_of_ne hd hf
      exact hframe

end OwnSteps

end ProgrammableSolana.Core
