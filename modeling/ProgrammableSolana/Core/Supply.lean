import ProgrammableSolana.Core.DepositEffect
import ProgrammableSolana.Core.InitializeEffect
import ProgrammableSolana.Solana.Supply

/-! The instructions of a Core keep the supplies right: opening a market creates empty accounts,
and everything else moves tokens through the Token program. -/
namespace ProgrammableSolana.Core

open ProgrammableSolana.Lib ProgrammableSolana.Solana

variable [Crypto] {cfg : Config}

theorem Initialized.supplied {L L' : Ledger} {a : InitializeMarketDomainV0}
    {args : InitializeMarketDomainV0Args} {bumps : InitializeMarketDomainV0Bumps}
    (h : Initialized cfg L L' a args bumps) (hs : Supplied L) : Supplied L' := by
  have hbefore : ∀ k ∈ a.created, L.token? k = none ∧ L.mint? k = none := by
    intro k hk
    obtain ⟨bytes, hraw⟩ := (h.unallocated k hk).blank.raw
    exact Ledger.neither_of_raw hraw
  have hstate : ∀ k s, L'.state? cfg.ID k = some s → L'.token? k = none ∧ L'.mint? k = none := by
    intro k s hs
    refine Ledger.neither_of_owner ?_
    rw [(Ledger.state?_eq_some.mp hs).1]
    exact cfg.ID_ne_token
  have hvault : ∀ k mint authority, mint ≠ nativeMint →
      L'.token? k = some (newTokenAccount mint authority) →
      (∀ t, L'.token? k = some t → t.isNative = none ∧ t.amount = 0) ∧ L'.mint? k = none := by
    intro k mint authority hm ht
    refine ⟨fun t ht' => ?_, Ledger.mint?_of_token? ht⟩
    obtain rfl := Option.some.inj (ht.symm.trans ht')
    exact ⟨if_neg hm, rfl⟩
  have hafter : ∀ k ∈ a.created,
      (∀ t, L'.token? k = some t → t.isNative = none ∧ t.amount = 0) ∧ L'.mint? k = none := by
    intro k hk
    have hempty : L'.token? k = none ∧ L'.mint? k = none →
        (∀ t, L'.token? k = some t → t.isNative = none ∧ t.amount = 0) ∧ L'.mint? k = none := by
      rintro ⟨htoken, hmint⟩
      refine ⟨fun t ht => ?_, hmint⟩
      rw [htoken] at ht
      cases ht
    simp only [InitializeMarketDomainV0.created, List.mem_cons, List.not_mem_nil, or_false] at hk
    rcases hk with rfl | rfl | rfl | rfl | rfl | rfl
    · exact hempty (hstate _ _ h.market)
    · exact hempty (hstate _ _ h.domain)
    · exact hempty (hstate _ _ h.feeLedger)
    · exact hvault _ _ _ h.classicA h.vaultA
    · exact hvault _ _ _ h.classicB h.vaultB
    · exact hvault _ _ _ h.classicA h.feeVault
  refine hs.of_balances (fun k t ht hn => ?_) (fun mint _ k => ?_) fun k => ?_
  · by_cases hk : k ∈ a.created
    · exact absurd ((hafter k hk).1 t ht).1 hn
    · exact hs.native k t ((Ledger.token?_congr (h.frame k hk)).symm.trans ht) hn
  · by_cases hk : k ∈ a.created
    · unfold balanceOf
      rw [(hbefore k hk).1]
      cases ht : L'.token? k with
      | none => rfl
      | some t => simp [((hafter k hk).1 t ht).2]
    · unfold balanceOf
      rw [Ledger.token?_congr (h.frame k hk)]
  · by_cases hk : k ∈ a.created
    · rw [(hafter k hk).2, (hbefore k hk).2]
    · exact Ledger.mint?_congr (h.frame k hk)

theorem deposit_supplied {a : DepositV0} {args : DepositV0Args} {w w' : World} {u : Unit}
    (h : (handleDepositV0 cfg a args).run w = (.ok u, w')) (hs : Supplied w.ledger) :
    Supplied w'.ledger := by
  simp only [handleDepositV0, Exec.bind_ok_iff, Exec.get_ok_iff, Exec.ofExcept_ok_iff,
    Exec.mapError_run_ok_iff, Exec.modify_ok_iff, emit] at h
  obtain ⟨_, _, ⟨rfl, rfl⟩, d, _, ⟨hload, rfl⟩, accountedAfter, _, ⟨hvalid, rfl⟩, _, w₁, hinvoke, _, _,
    ⟨rfl, rfl⟩, _, _, ⟨-, rfl⟩, domain, _, ⟨-, rfl⟩, _, _, rfl, rfl⟩ := h
  have hbound := (validateDeposit_ok hload hvalid).1
  have hsame := processTransfer_sameOwnership (tokenInvoke_ok hinvoke).2.1
  refine (tokenInvoke_supplied hs hinvoke).setState ?_
  rw [hsame.owner, (Ledger.state?_eq_some.mp hbound.domain).1]
  exact cfg.ID_ne_token

theorem settle_supplied {w w' : World} {caller : List AccountInfo} {e : Envelope}
    {d after : EnvelopeData} {authority : Pubkey} {signers : List Pubkey} {t : SettleTerms}
    (h : (settle cfg caller e d authority signers t).run w = (.ok after, w'))
    (hs : Supplied w.ledger) : Supplied w'.ledger := by
  simp only [settle, Exec.bind_ok_iff, Exec.mapError_run_ok_iff, Exec.ofExcept_ok_iff,
    Exec.get_ok_iff, Exec.pure_ok_iff] at h
  obtain ⟨_, w₁, h₁, _, w₂, h₂, _, _, ⟨-, rfl⟩, _, w₃, h₃, _, _, ⟨rfl, rfl⟩, _, _, ⟨-, rfl⟩, _, _,
    ⟨-, rfl⟩, -, rfl⟩ := h
  exact tokenInvoke_supplied (tokenInvoke_supplied (tokenInvoke_supplied hs h₁) h₂) h₃

omit [Crypto] in
theorem accountedLedger_supplied {L : Ledger} {e : Envelope} {d : EnvelopeData} {a b feeA : UInt64}
    (h : Supplied L) (hd : (L e.domain.key).owner ≠ tokenProgram)
    (hf : (L e.feeLedger.key).owner ≠ tokenProgram) : Supplied (accountedLedger L e d a b feeA) := by
  refine (h.setState hd).setState ?_
  rw [Ledger.setState, Ledger.setData_owner]
  exact hf

end ProgrammableSolana.Core
