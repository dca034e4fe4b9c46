import ProgrammableSolana.Core.ExecuteEffect
import ProgrammableSolana.Solana.Balances
import ProgrammableSolana.Solana.TokenProgress

/-! When a settlement goes through: none of its three transfers and none of its checks can fail on
accounts in the profile the handlers ask for, as long as no mint has more tokens than a `u64`. -/
namespace ProgrammableSolana.Core

open ProgrammableSolana.Lib ProgrammableSolana.Solana

/-- The two debits of the user source go through, and leave it as `x₂` but for the amount. -/
structure Pays (x x₂ : TokenAccount) (authority : Pubkey) (t : SettleTerms) : Prop where
  total : t.totalInputDebit.toNat = t.amountIn.toNat + t.protocolFee.toNat
  held : t.totalInputDebit ≤ x.amount
  debits : ∃ x₁, authorizeDebit [authority] x authority t.amountIn = .ok x₁ ∧
    authorizeDebit [authority] { x₁ with amount := x.amount - t.amountIn } authority
      t.protocolFee = .ok x₂

theorem Pays.of_owner {x : TokenAccount} {authority : Pubkey} {t : SettleTerms}
    (htotal : t.totalInputDebit.toNat = t.amountIn.toNat + t.protocolFee.toNat)
    (hheld : t.totalInputDebit ≤ x.amount) (hd : x.delegate = none) (ho : x.owner = authority) :
    Pays x { x with amount := x.amount - t.amountIn } authority t := by
  refine ⟨htotal, hheld, x, ?_, ?_⟩
  · exact authorizeDebit_owner (by simp [hd]) ho (by simp)
  · exact authorizeDebit_owner (by simp [hd]) ho (by simp)

/-- A delegate that may spend exactly the total is used up by the two debits: the first leaves the
fee, which is not zero, and the second nothing. -/
theorem Pays.of_delegate {x : TokenAccount} {authority : Pubkey} {t : SettleTerms}
    (htotal : t.totalInputDebit.toNat = t.amountIn.toNat + t.protocolFee.toNat)
    (hheld : t.totalInputDebit ≤ x.amount) (hd : x.delegate = some authority)
    (ha : x.delegatedAmount = t.totalInputDebit) (hfee : 0 < t.protocolFee.toNat) :
    ∃ x₂, Pays x x₂ authority t ∧ x₂.delegate = none ∧ x₂.delegatedAmount = 0 := by
  have hle : t.amountIn ≤ x.delegatedAmount := by
    rw [UInt64.le_iff_toNat_le, ha]
    omega
  have hremaining : x.delegatedAmount - t.amountIn = t.protocolFee := by
    rw [← UInt64.toNat_inj, UInt64.toNat_sub_of_le _ _ hle, ha]
    omega
  have hne : ¬ t.protocolFee = 0 := by
    intro hzero
    rw [hzero] at hfee
    exact absurd hfee (by decide)
  have hmem : authority ∈ [authority] := by simp
  have h₁ := authorizeDebit_delegate hd hmem hle
  rw [hremaining, if_neg hne] at h₁
  have h₂ := authorizeDebit_delegate (x := { x with
    delegatedAmount := t.protocolFee, delegate := some authority,
    amount := x.amount - t.amountIn }) rfl hmem (UInt64.le_refl t.protocolFee)
  exact ⟨_, ⟨htotal, hheld, _, h₁, h₂⟩, by simp, by simp⟩

private theorem reloadTokens_succeeds {L : Ledger} {e : Envelope} {d after : EnvelopeData}
    (h : TokensAt L e after) : reloadTokens L e d = .ok { d with
      userSourceA := after.userSourceA, userDestinationB := after.userDestinationB,
      vaultA := after.vaultA, vaultB := after.vaultB, feeVault := after.feeVault } := by
  simp only [reloadTokens, except_bind_ok_iff, loadTokenAccount_ok_iff, except_pure_ok_iff]
  exact ⟨_, h.userSourceA, _, h.userDestinationB, _, h.vaultA, _, h.vaultB, _, h.feeVault, rfl⟩

section

variable [Crypto] (cfg : Config)

/-- Everything a settlement relies on. -/
structure Settleable (caller : List AccountInfo) (L : Ledger) (e : Envelope) (d : EnvelopeData)
    (authority : Pubkey) (signers : List Pubkey) (t : SettleTerms) : Prop where
  tokens : TokensAt L e d
  mintA : L.mint? e.mintA.key = some d.mintA
  mintB : L.mint? e.mintB.key = some d.mintB
  distinct : e.tokenKeys.Nodup
  writable : ∀ k ∈ e.tokenKeys, ∃ info ∈ caller, info.key = k ∧ info.isWritable = true
  signed : (∃ info ∈ caller, info.key = authority ∧ info.isSigner = true) ∨ authority ∈ signers
  domainSigner : createProgramAddress [cfg.domainSeedV0, e.market.key.toList, [d.domain.bump]]
    cfg.ID = some e.domain.key
  thawed : ∀ x ∈ [d.userSourceA, d.userDestinationB, d.vaultA, d.vaultB, d.feeVault],
    x.state ≠ .frozen
  mintsA : ∀ x ∈ [d.userSourceA, d.vaultA, d.feeVault], x.mint = e.mintA.key
  mintsB : ∀ x ∈ [d.userDestinationB, d.vaultB], x.mint = e.mintB.key
  vaultB : d.vaultB.delegate = none ∧ d.vaultB.owner = e.domain.key
  reserves : t.amountOut ≤ d.vaultB.amount
  fitsVaultA : d.vaultA.amount.toNat + t.amountIn.toNat < 2 ^ 64
  fitsFeeVault : d.feeVault.amount.toNat + t.protocolFee.toNat < 2 ^ 64
  fitsDestination : d.userDestinationB.amount.toNat + t.amountOut.toNat < 2 ^ 64

variable {cfg} {caller : List AccountInfo} {e : Envelope} {d : EnvelopeData} {authority : Pubkey}
  {signers : List Pubkey} {t : SettleTerms} {w : World}

/-- A settlement on such accounts succeeds, and the source is left as its debits leave it. -/
theorem settle_succeeds (h : Settleable cfg caller w.ledger e d authority signers t)
    {x₂ : TokenAccount} (hpay : Pays d.userSourceA x₂ authority t) :
    ∃ after w', (settle cfg caller e d authority signers t).run w = (.ok after, w') ∧
      after.userSourceA.delegate = x₂.delegate ∧
      after.userSourceA.delegatedAmount = x₂.delegatedAmount := by
  obtain ⟨htotal, hheld, x₁, hdebit₁, hdebit₂⟩ := hpay
  obtain ⟨hm₁, hs₁⟩ := authorizeDebit_kept hdebit₁
  have hnodup := h.distinct
  simp only [Envelope.tokenKeys, List.nodup_cons, List.mem_cons, List.not_mem_nil, or_false,
    not_or] at hnodup
  obtain ⟨⟨hsd, hsa, hsb, hsf⟩, ⟨hda, hdb, hdf⟩, ⟨hab, haf⟩, hbf, -⟩ := hnodup
  have hwritable := h.writable
  have hthawed := h.thawed
  have hmintsA := h.mintsA
  have hmintsB := h.mintsB
  simp only [Envelope.tokenKeys, List.mem_cons, List.not_mem_nil, or_false, forall_eq_or_imp,
    forall_eq] at hwritable hthawed hmintsA hmintsB
  obtain ⟨hws, hwd, hwa, hwb, hwf⟩ := hwritable
  obtain ⟨hfs, hfd, hfa, hfb, hff⟩ := hthawed
  obtain ⟨hms, hma, hmf⟩ := hmintsA
  obtain ⟨hmd, hmb⟩ := hmintsB
  have hle := UInt64.le_iff_toNat_le.mp hheld
  have hin : t.amountIn ≤ d.userSourceA.amount := UInt64.le_iff_toNat_le.mpr (by omega)
  have hsub := UInt64.toNat_sub_of_le _ _ hin
  have hfee : t.protocolFee ≤ d.userSourceA.amount - t.amountIn := by
    rw [UInt64.le_iff_toNat_le]
    omega
  have ht := h.tokens
  have hmint : ∀ {k key : Pubkey} {x : TokenAccount} {m : Mint}, w.ledger.token? k = some x →
      w.ledger.mint? key = some m → key ≠ k := fun hx hm => Ne.symm (Ledger.token?_ne_mint? hx hm)
  have hop₁ := transferChecked_succeeds hsa ht.userSourceA ht.vaultA h.mintA hfs hfa hin hms hma
    hdebit₁ h.fitsVaultA
  obtain ⟨w₁, hrun₁, hL₁⟩ := transferInvoke_succeeds hws hwa h.signed hop₁
  have hf₁ : ∀ k, k ≠ e.userSourceA.key → k ≠ e.vaultA.key → w₁.ledger k = w.ledger k := by
    intro k hs ha
    rw [hL₁, transferred_frame hs ha]
  have hx₁ : w₁.ledger.token? e.userSourceA.key =
      some { x₁ with amount := d.userSourceA.amount - t.amountIn } := by
    rw [hL₁, transferred_source hsa ht.userSourceA]
  have hfv₁ : w₁.ledger.token? e.feeVault.key = some d.feeVault :=
    (Ledger.token?_congr (hf₁ _ (Ne.symm hsf) (Ne.symm haf))).trans ht.feeVault
  have hmA₁ : w₁.ledger.mint? e.mintA.key = some d.mintA :=
    (Ledger.mint?_congr (hf₁ _ (hmint ht.userSourceA h.mintA) (hmint ht.vaultA h.mintA))).trans
      h.mintA
  have hop₂ := transferChecked_succeeds hsf hx₁ hfv₁ hmA₁ (hs₁ ▸ hfs) hff hfee (hm₁.trans hms) hmf
    hdebit₂ h.fitsFeeVault
  obtain ⟨w₂, hrun₂, hL₂⟩ := transferInvoke_succeeds hws hwf h.signed hop₂
  have hf₂ : ∀ k, k ≠ e.userSourceA.key → k ≠ e.vaultA.key → k ≠ e.feeVault.key →
      w₂.ledger k = w.ledger k := by
    intro k hs ha hf
    rw [hL₂, transferred_frame hs hf, hf₁ k hs ha]
  have hvb₂ : w₂.ledger.token? e.vaultB.key = some d.vaultB :=
    (Ledger.token?_congr (hf₂ _ (Ne.symm hsb) (Ne.symm hab) hbf)).trans ht.vaultB
  have hdst₂ : w₂.ledger.token? e.userDestinationB.key = some d.userDestinationB :=
    (Ledger.token?_congr (hf₂ _ (Ne.symm hsd) hda hdf)).trans ht.userDestinationB
  have hmB₂ : w₂.ledger.mint? e.mintB.key = some d.mintB :=
    (Ledger.mint?_congr (hf₂ _ (hmint ht.userSourceA h.mintB) (hmint ht.vaultA h.mintB)
      (hmint ht.feeVault h.mintB))).trans h.mintB
  have hdebit₃ : authorizeDebit [e.domain.key] d.vaultB e.domain.key t.amountOut = .ok d.vaultB :=
    authorizeDebit_owner (by simp [h.vaultB.1]) h.vaultB.2 (by simp)
  have hop₃ := transferChecked_succeeds (Ne.symm hdb) hvb₂ hdst₂ hmB₂ hfb hfd h.reserves hmb hmd
    hdebit₃ h.fitsDestination
  obtain ⟨w₃, hrun₃, hL₃⟩ := transferInvoke_succeeds hwb hwd
    (.inr (List.mem_singleton_self e.domain.key)) hop₃
  have hf₃ : ∀ k, k ≠ e.vaultB.key → k ≠ e.userDestinationB.key → w₃.ledger k = w₂.ledger k := by
    intro k hb hd
    rw [hL₃, transferred_frame hb hd]
  have hsource := (Ledger.token?_congr (hf₃ _ hsb hsd)).trans
    ((congrArg (·.token? e.userSourceA.key) hL₂).trans (transferred_source hsf hx₁))
  have hvaultA := (Ledger.token?_congr (hf₃ _ hab (Ne.symm hda))).trans
    ((Ledger.token?_congr (hL₂ ▸ transferred_frame (Ne.symm hsa) haf)).trans
      ((congrArg (·.token? e.vaultA.key) hL₁).trans (transferred_destination ht.vaultA)))
  have hfeeVault := (Ledger.token?_congr (hf₃ _ (Ne.symm hbf) (Ne.symm hdf))).trans
    ((congrArg (·.token? e.feeVault.key) hL₂).trans (transferred_destination hfv₁))
  have hvaultB := (congrArg (·.token? e.vaultB.key) hL₃).trans
    (transferred_source (Ne.symm hdb) hvb₂)
  have hdest := (congrArg (·.token? e.userDestinationB.key) hL₃).trans
    (transferred_destination hdst₂)
  have htokens : TokensAt w₃.ledger e { d with
      userSourceA := _, userDestinationB := _, vaultA := _, vaultB := _, feeVault := _ } :=
    ⟨hsource, hdest, hvaultA, hvaultB, hfeeVault⟩
  have hreload := reloadTokens_succeeds (d := d) htokens
  have hdomain : signerOfSeeds cfg [cfg.domainSeedV0, e.market.key.toList, [d.domain.bump]] =
      .ok e.domain.key := okOr_ok_iff.mpr h.domainSigner
  simp only [settle, Exec.bind_ok_iff, Exec.mapError_run_ok_iff, Exec.ofExcept_ok_iff,
    Exec.get_ok_iff, Exec.pure_ok_iff]
  refine ⟨_, w₃, ⟨(), w₁, hrun₁, (), w₂, hrun₂, _, w₂, ⟨hdomain, rfl⟩, (), w₃, hrun₃, w₃, w₃,
    ⟨rfl, rfl⟩, _, w₃, ⟨hreload, rfl⟩, (), w₃, ⟨?_, rfl⟩, rfl, rfl⟩, rfl, rfl⟩
  simp only [checkDeltas, except_bind_ok_iff, exactDebit_ok_iff, exactCredit_ok_iff]
  refine ⟨(), ?_, (), ?_, (), ?_, (), ?_, ?_⟩
  · rw [UInt64.toNat_sub_of_le _ _ hfee]
    omega
  · rw [toNat_add_of_fits h.fitsVaultA]
    omega
  · rw [toNat_add_of_fits h.fitsFeeVault]
    omega
  · have hreserves := UInt64.le_iff_toNat_le.mp h.reserves
    rw [UInt64.toNat_sub_of_le _ _ h.reserves]
    omega
  · rw [toNat_add_of_fits h.fitsDestination]
    omega

/-- The infos of the token accounts a settlement touches. -/
def Envelope.tokenInfos (e : Envelope) : List AccountInfo :=
  [e.userSourceA, e.userDestinationB, e.vaultA, e.vaultB, e.feeVault]

theorem writable_of_ok {L : Ledger} {source : Option Pubkey} {u : Unit}
    (h : constrainEnvelope cfg L e d source = .ok u) :
    ∀ info ∈ e.tokenInfos, info.isWritable = true := by
  simp only [constrainEnvelope, constraintMut, except_bind_ok_iff, require_ok_iff] at h
  obtain ⟨_, -, _, -, _, -, _, -, _, -, _, -, _, -, _, hs, _, -, _, -, _, hd, _, -, _, ha, _, -, _, -,
    _, -, _, hb, _, -, _, -, _, -, _, hf, -⟩ := h
  simp only [Envelope.tokenInfos, List.mem_cons, List.not_mem_nil, or_false, forall_eq_or_imp,
    forall_eq]
  exact ⟨hs, hd, ha, hb, hf⟩

theorem engine_of_ok {L : Ledger} {u : Unit} (h : bindEnvelope cfg L e d = .ok u) :
    (L e.engineProgram.key).executable = true ∧ (L e.engineState.key).executable = false := by
  simp only [bindEnvelope, except_bind_ok_iff, require_ok_iff] at h
  obtain ⟨_, -, _, -, _, -, _, -, _, -, _, -, _, -, _, -, _, hprogram, _, -, _, hstate, -⟩ := h
  exact ⟨hprogram, hstate⟩

omit [Crypto] in
theorem destination_of_ok {source : Option Pubkey} {u : Unit}
    (h : profileEnvelope e d source = .ok u) : d.userDestinationB.state = .initialized := by
  simp only [profileEnvelope, validateCreditDestination, except_bind_ok_iff,
    validateCommonTokenAccount_ok_iff] at h
  obtain ⟨_, -, _, -, _, -, _, ⟨hstate, -⟩, -⟩ := h
  exact hstate

/-- An envelope that passed the checks can be settled, also after a call that left the accounts of
the Token program alone. -/
theorem Bound.settleable {L L₁ : Ledger} {engine : Pubkey → Bool} (hb : Bound cfg L e d)
    (hp : Profiled e d) (hnodup : e.tokenKeys.Nodup)
    (hwritable : ∀ info ∈ e.tokenInfos, info.isWritable = true)
    (hcaller : ∀ info ∈ e.tokenInfos, info ∈ caller)
    (hsource : d.userSourceA.state = .initialized ∧ d.userSourceA.mint = e.mintA.key)
    (hdest : d.userDestinationB.state = .initialized)
    (hA : totalBalance L e.mintA.key < 2 ^ 64) (hB : totalBalance L e.mintB.key < 2 ^ 64)
    (hconf : Confined cfg.ID engine L L₁)
    (hforeign : ∀ k, engine k = true → (L k).owner ≠ tokenProgram)
    (hsigned : (∃ info ∈ caller, info.key = authority ∧ info.isSigner = true) ∨
      authority ∈ signers)
    (htotal : t.totalInputDebit.toNat = t.amountIn.toNat + t.protocolFee.toNat)
    (hheld : t.totalInputDebit ≤ d.userSourceA.amount)
    (hout : t.amountOut ≤ d.domain.accountedB) :
    Settleable cfg caller L₁ e d authority signers t := by
  have hkeep : ∀ k, (L k).owner = tokenProgram → L₁ k = L k := by
    intro k hk
    refine hconf.frame k ?_
    by_contra hne
    exact hforeign k (by simpa using hne) hk
  have hheld' := UInt64.le_iff_toNat_le.mp hheld
  have hout' := UInt64.le_iff_toNat_le.mp hout
  have hcoversB := UInt64.le_iff_toNat_le.mp hp.coversB
  have hnodup' := hnodup
  simp only [Envelope.tokenKeys, List.nodup_cons, List.mem_cons, List.not_mem_nil, or_false,
    not_or] at hnodup'
  obtain ⟨⟨-, hsa, -, hsf⟩, ⟨-, hdb, -⟩, -⟩ := hnodup'
  have hsumA := amounts_le_totalBalance hb.userSourceA hb.vaultA hsource.2 hp.vaultA.mint hsa
  have hsumFee := amounts_le_totalBalance hb.userSourceA hb.feeVault hsource.2 hp.feeVault.mint hsf
  have hsumB := amounts_le_totalBalance hb.userDestinationB hb.vaultB hp.destinationMint
    hp.vaultB.mint hdb
  constructor
  · exact tokensAt_of_confined hb.tokensAt hconf hforeign
  · exact (Ledger.mint?_congr (hkeep _ (Ledger.mint?_eq_some.mp hb.mintA).1)).trans hb.mintA
  · exact (Ledger.mint?_congr (hkeep _ (Ledger.mint?_eq_some.mp hb.mintB).1)).trans hb.mintB
  · exact hnodup
  · intro k hk
    have hmem : k ∈ e.tokenInfos.map AccountInfo.key := hk
    obtain ⟨info, hinfo, rfl⟩ := List.mem_map.mp hmem
    exact ⟨info, hcaller info hinfo, rfl, hwritable info hinfo⟩
  · exact hsigned
  · rw [← hb.domainAddress]
  · simp only [List.mem_cons, List.not_mem_nil, or_false, forall_eq_or_imp, forall_eq, hsource.1,
      hdest, hp.vaultA.state, hp.vaultB.state, hp.feeVault.state]
    simp
  · simp only [List.mem_cons, List.not_mem_nil, or_false, forall_eq_or_imp, forall_eq]
    exact ⟨hsource.2, hp.vaultA.mint, hp.feeVault.mint⟩
  · simp only [List.mem_cons, List.not_mem_nil, or_false, forall_eq_or_imp, forall_eq]
    exact ⟨hp.destinationMint, hp.vaultB.mint⟩
  · exact ⟨hp.vaultB.delegate, hp.vaultB.owner⟩
  · exact UInt64.le_trans hout hp.coversB
  · omega
  · omega
  · omega

end

end ProgrammableSolana.Core
