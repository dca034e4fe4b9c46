import ProgrammableSolana.Core.Envelope
import ProgrammableSolana.Core.Settlement

/-! A settlement that uses the delegate of the source up comes to the same whoever the delegate
was. -/
namespace ProgrammableSolana.Core

open ProgrammableSolana.Lib ProgrammableSolana.Solana

/-- The accounts with another delegate for the source. -/
def redelegated (d : EnvelopeData) (spendAuthority : Pubkey) : EnvelopeData :=
  { d with userSourceA := { d.userSourceA with delegate := some spendAuthority } }

variable {L L' M M' : Ledger} {e : Envelope} {d d' after after' : EnvelopeData}

private theorem account_eq_of_token {k : Pubkey} {x : TokenAccount} (hx : L.token? k = some x)
    (hx' : L'.token? k = some x) (hcode : (L' k).executable = (L k).executable) : L' k = L k := by
  obtain ⟨howner, hdata⟩ := Ledger.token?_eq_some.mp hx
  obtain ⟨howner', hdata'⟩ := Ledger.token?_eq_some.mp hx'
  cases hL : L k with
  | mk owner executable data =>
    cases hL' : L' k with
    | mk owner' executable' data' =>
      rw [hL] at howner hdata hcode
      rw [hL'] at howner' hdata' hcode
      simp only at howner hdata howner' hdata' hcode
      rw [howner, howner', hdata, hdata', hcode]

/-- Two ledgers that hold the same token accounts for an envelope hold the same accounts there. -/
theorem TokensAt.agree (h : TokensAt L e d) (h' : TokensAt L' e d)
    (hcode : ∀ k ∈ e.tokenKeys, (L' k).executable = (L k).executable) {k : Pubkey}
    (hk : k ∈ e.tokenKeys) : L' k = L k := by
  have hsame := hcode k hk
  simp only [Envelope.tokenKeys, List.mem_cons, List.not_mem_nil, or_false] at hk
  rcases hk with rfl | rfl | rfl | rfl | rfl
  · exact account_eq_of_token h.userSourceA h'.userSourceA hsame
  · exact account_eq_of_token h.userDestinationB h'.userDestinationB hsame
  · exact account_eq_of_token h.vaultA h'.vaultA hsame
  · exact account_eq_of_token h.vaultB h'.vaultB hsame
  · exact account_eq_of_token h.feeVault h'.feeVault hsame

private theorem setData_congr {key k : Pubkey} {data : AccountData CoreState} (h : L' k = L k) :
    L'.setData key data k = L.setData key data k := by
  by_cases hk : k = key
  · subst hk
    rw [Ledger.setData_self, Ledger.setData_self, h]
  · rw [Ledger.setData_of_ne hk, Ledger.setData_of_ne hk, h]

theorem accountedLedger_congr {k : Pubkey} {a b feeA : UInt64} (hdomain : d'.domain = d.domain)
    (hfee : d'.feeLedger = d.feeLedger) (h : L' k = L k) :
    accountedLedger L' e d' a b feeA k = accountedLedger L e d a b feeA k := by
  unfold accountedLedger Ledger.setState
  rw [hdomain, hfee]
  exact setData_congr (setData_congr h)

theorem Credited.unique {y y₁ y₂ : TokenAccount} {n : ℕ} (h₁ : Credited y y₁ n)
    (h₂ : Credited y y₂ n) : y₂ = y₁ := by
  have hamount : y₂.amount = y₁.amount := by
    rw [← UInt64.toNat_inj, h₁.amount, h₂.amount]
  rw [h₂.rest, h₁.rest, hamount]

/-- A debit that leaves no delegate does not depend on the one that made it. -/
theorem Debited.unique {x x' x₁ x₂ : TokenAccount} {authority authority' : Pubkey} {n : ℕ}
    (h₁ : Debited x x₁ authority n) (h₂ : Debited x' x₂ authority' n)
    (hx : x' = { x with delegate := x'.delegate }) (hdelegate : x₂.delegate = x₁.delegate)
    (hleft : x₂.delegatedAmount = x₁.delegatedAmount) : x₂ = x₁ := by
  have hamount : x₂.amount = x₁.amount := by
    have hsame : x'.amount = x.amount := by
      rw [hx]
    have hfirst := h₁.amount
    have hsecond := h₂.amount
    rw [hsame] at hsecond
    rw [← UInt64.toNat_inj]
    omega
  rw [h₂.rest, h₁.rest, hx, hamount, hdelegate, hleft]

/-- The same terms move the same balances, whoever the source was delegated to, once its delegate is
gone. -/
theorem Settled.redelegated {authority authority' spend : Pubkey} {terms : SettleTerms}
    (h : Settled L M e d after authority terms)
    (h' : Settled L' M' e (redelegated d spend) after' authority' terms)
    (hprofiled : Profiled e d)
    (hcleared : after.userSourceA.delegate = none ∧ after.userSourceA.delegatedAmount = 0)
    (hcleared' : after'.userSourceA.delegate = none ∧ after'.userSourceA.delegatedAmount = 0) :
    TokensAt M' e after := by
  have hsource : after'.userSourceA = after.userSourceA := by
    apply h.sourceDebit.unique h'.sourceDebit
    · rfl
    · rw [hcleared'.1, hcleared.1]
    · rw [hcleared'.2, hcleared.2]
  have hvaultB : after'.vaultB = after.vaultB := by
    obtain ⟨hd, hleft, -⟩ := h.vaultBDebit.undelegated hprofiled.vaultB.delegate
    obtain ⟨hd', hleft', -⟩ := h'.vaultBDebit.undelegated hprofiled.vaultB.delegate
    apply h.vaultBDebit.unique h'.vaultBDebit
    · rfl
    · rw [hd', hd]
    · rw [hleft', hleft]
      rfl
  have htokens := h'.tokens
  constructor
  · rw [← hsource]
    exact htokens.userSourceA
  · rw [← h.destinationCredit.unique h'.destinationCredit]
    exact htokens.userDestinationB
  · rw [← h.vaultACredit.unique h'.vaultACredit]
    exact htokens.vaultA
  · rw [← hvaultB]
    exact htokens.vaultB
  · rw [← h.feeVaultCredit.unique h'.feeVaultCredit]
    exact htokens.feeVault

end ProgrammableSolana.Core
