import ProgrammableSolana.Core.DepositEffect
import ProgrammableSolana.Core.ExecuteEffect
import ProgrammableSolana.Core.InitializeEffect

/-! The accounted input and the accounted fee of a market never shrink. -/
namespace ProgrammableSolana.Core

open ProgrammableSolana.Lib ProgrammableSolana.Solana

/-- Every domain and fee ledger is still there and accounts for at least as much input and fee. -/
structure Grows (cfg : Config) (L L' : Ledger) : Prop where
  domain : ∀ k x, L.state? cfg.ID k = some (.domain x) →
    ∃ x', L'.state? cfg.ID k = some (.domain x') ∧ x.accountedA ≤ x'.accountedA
  feeLedger : ∀ k x, L.state? cfg.ID k = some (.feeLedger x) →
    ∃ x', L'.state? cfg.ID k = some (.feeLedger x') ∧ x.accountedFeeA ≤ x'.accountedFeeA

section Growth

variable {cfg : Config} {L L' L'' : Ledger}

theorem Grows.refl (L : Ledger) : Grows cfg L L where
  domain _ x hx := ⟨x, hx, UInt64.le_refl _⟩
  feeLedger _ x hx := ⟨x, hx, UInt64.le_refl _⟩

theorem Grows.trans (h : Grows cfg L L') (h' : Grows cfg L' L'') : Grows cfg L L'' := by
  constructor
  · intro k x hx
    obtain ⟨x', hx', hle⟩ := h.domain k x hx
    obtain ⟨x'', hx'', hle'⟩ := h'.domain k x' hx'
    exact ⟨x'', hx'', UInt64.le_trans hle hle'⟩
  · intro k x hx
    obtain ⟨x', hx', hle⟩ := h.feeLedger k x hx
    obtain ⟨x'', hx'', hle'⟩ := h'.feeLedger k x' hx'
    exact ⟨x'', hx'', UInt64.le_trans hle hle'⟩

variable [Crypto]

theorem external_same (cfg : Config) {action : Action cfg.ID} {w w' : World} {u : Unit}
    (h : ((action.perform (anyPrivileges cfg.ID)).mapError Core.Error.runtime).run w = (.ok u, w'))
    {k : Pubkey} {s : CoreState} (hs : w.ledger.state? cfg.ID k = some s) :
    w'.ledger k = w.ledger k := by
  have hconf := Action.perform_confined cfg.ID_ne_token cfg.ID_ne_system (by simp [anyPrivileges])
    (Exec.mapError_run_ok_iff.mp h)
  exact hconf.own k (Ledger.state?_eq_some.mp hs).1

theorem Initialized.same {a : InitializeMarketDomainV0} {args : InitializeMarketDomainV0Args}
    {bumps : InitializeMarketDomainV0Bumps} (h : Initialized cfg L L' a args bumps) {k : Pubkey}
    {s : CoreState} (hs : L.state? cfg.ID k = some s) : L' k = L k := by
  apply h.keeps
  rw [(Ledger.state?_eq_some.mp hs).1]
  exact cfg.ID_ne_system

variable {e : Envelope} {d after : EnvelopeData} {authority : Pubkey} {t : SettleTerms}
  {post : PostAccounted} {engine : Pubkey → Bool}

end Growth

end ProgrammableSolana.Core
