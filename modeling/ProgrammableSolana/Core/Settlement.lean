import ProgrammableSolana.Core.Envelope

/-! The settlement of an execution: two debits of the user source, one debit of the output
vault, and the exact-delta checks on the reloaded accounts. -/
namespace ProgrammableSolana.Core

open ProgrammableSolana.Lib ProgrammableSolana.Solana

/-- The amounts of one settlement. -/
structure SettleTerms where
  amountIn : UInt64
  protocolFee : UInt64
  totalInputDebit : UInt64
  amountOut : UInt64

/-- `reload` of the five token accounts a settlement touches. -/
def reloadTokens (L : Ledger) (e : Envelope) (d : EnvelopeData) : Result EnvelopeData := do
  let userSourceA ← loadTokenAccount L e.userSourceA.key
  let userDestinationB ← loadTokenAccount L e.userDestinationB.key
  let vaultA ← loadTokenAccount L e.vaultA.key
  let vaultB ← loadTokenAccount L e.vaultB.key
  let feeVault ← loadTokenAccount L e.feeVault.key
  return { d with userSourceA, userDestinationB, vaultA, vaultB, feeVault }

/-- The five exact deltas between the cached balances and the reloaded ones. -/
def checkDeltas (before after : EnvelopeData) (t : SettleTerms) : Result Unit := do
  exactDebit before.userSourceA.amount after.userSourceA.amount t.totalInputDebit
    .unexpectedSourceDebit
  exactCredit before.vaultA.amount after.vaultA.amount t.amountIn .unexpectedVaultCredit
  exactCredit before.feeVault.amount after.feeVault.amount t.protocolFee .unexpectedFeeVaultCredit
  exactDebit before.vaultB.amount after.vaultB.amount t.amountOut .unexpectedVaultDebit
  exactCredit before.userDestinationB.amount after.userDestinationB.amount t.amountOut
    .unexpectedDestinationCredit

section

variable [Crypto] (cfg : Config)

/-- The address a `with_signer` call signs for. -/
def signerOfSeeds (seeds : List (List UInt8)) : Result Pubkey :=
  okOr (createProgramAddress seeds cfg.ID) (.runtime .maxSeedLengthExceeded)

/-- Three `transfer_checked` calls, the reloads and the exact-delta checks. The source debits
carry `sourceAuthority`, signed for by `sourceSigners` where Core signs them itself. -/
def settle (caller : List AccountInfo) (e : Envelope) (d : EnvelopeData) (sourceAuthority : Pubkey)
    (sourceSigners : List Pubkey) (t : SettleTerms) : Handler EnvelopeData := do
  (tokenInvoke caller sourceSigners (.transferChecked e.userSourceA.key e.mintA.key e.vaultA.key
    sourceAuthority t.amountIn d.mintA.decimals) (some sourceAuthority)).mapError .runtime
  (tokenInvoke caller sourceSigners (.transferChecked e.userSourceA.key e.mintA.key e.feeVault.key
    sourceAuthority t.protocolFee d.mintA.decimals) (some sourceAuthority)).mapError .runtime
  let domainSigner ← .ofExcept (signerOfSeeds cfg
    [cfg.domainSeedV0, e.market.key.toList, [d.domain.bump]])
  (tokenInvoke caller [domainSigner] (.transferChecked e.vaultB.key e.mintB.key
    e.userDestinationB.key e.domain.key t.amountOut d.mintB.decimals)
    (some e.domain.key)).mapError .runtime
  let w ← .get
  let after ← .ofExcept (reloadTokens w.ledger e d)
  .ofExcept (checkDeltas d after t)
  return after

/-- The accounted fields after a settlement. -/
def accountedLedger (L : Ledger) (e : Envelope) (d : EnvelopeData)
    (accountedA accountedB accountedFeeA : UInt64) : Ledger :=
  (L.setState e.domain.key (.domain { d.domain with accountedA, accountedB })).setState
    e.feeLedger.key (.feeLedger { d.feeLedger with accountedFeeA })

def writeAccounted (e : Envelope) (d : EnvelopeData) (accountedA accountedB accountedFeeA : UInt64) :
    Handler Unit := do
  .modify fun w => { w with
    ledger := accountedLedger w.ledger e d accountedA accountedB accountedFeeA }

end

/-- `x'` is `x` after a debit of `amount`, whatever became of its delegate. -/
structure Debited (x x' : TokenAccount) (authority : Pubkey) (amount : ℕ) : Prop where
  amount : x'.amount.toNat + amount = x.amount.toNat
  rest : x' = { x with
    amount := x'.amount, delegate := x'.delegate, delegatedAmount := x'.delegatedAmount }
  undelegated : x.delegate = none →
    x'.delegate = none ∧ x'.delegatedAmount = x.delegatedAmount ∧ x.owner = authority
  signed : x.delegate = some authority ∨ x.owner = authority

/-- `y'` is `y` after a credit of `amount`. -/
structure Credited (y y' : TokenAccount) (amount : ℕ) : Prop where
  amount : y'.amount.toNat = y.amount.toNat + amount
  rest : y' = { y with amount := y'.amount }

private theorem debited_of_authorize {x x₁ : TokenAccount} {authority : Pubkey} {amount : UInt64}
    {signers : List Pubkey} (h : authorizeDebit signers x authority amount = .ok x₁)
    (hheld : amount ≤ x.amount) :
    Debited x { x₁ with amount := x.amount - amount } authority amount.toNat := by
  have hle : amount.toNat ≤ x.amount.toNat := UInt64.le_iff_toNat_le.mp hheld
  have hamount : (x.amount - amount).toNat + amount.toNat = x.amount.toNat := by
    rw [UInt64.toNat_sub_of_le _ _ hheld]
    omega
  rcases authorizeDebit_ok h with ⟨hd, -, -, rfl⟩ | ⟨-, ho, -, rfl⟩
  · exact ⟨hamount, rfl, fun hnone => by simp [hnone] at hd, .inl hd⟩
  · exact ⟨hamount, rfl, fun hnone => ⟨hnone, rfl, ho⟩, .inr ho⟩

/-- A transfer between two accounts, as a relation on the accounts it names. -/
theorem transferChecked_effect {σ : Type} {L L' : Solana.Ledger σ}
    {source mint destination authority : Pubkey} {amount : UInt64} {decimals : UInt8}
    {signers : List Pubkey} {x y : TokenAccount}
    (h : (TokenOp.transferChecked source mint destination authority amount decimals).apply L signers =
      .ok L') (hne : source ≠ destination) (hx : L.token? source = some x)
    (hy : L.token? destination = some y) :
    ∃ x' y', L'.token? source = some x' ∧ L'.token? destination = some y' ∧
      Debited x x' authority amount.toNat ∧ Credited y y' amount.toNat ∧
      ∀ k, k ≠ source → k ≠ destination → L' k = L k := by
  obtain ⟨src, dst, debited, hsrc, hdst, hheld, -, hdebit, ⟨heq, -⟩ | ⟨-, credited, hc, rfl⟩⟩ :=
    processTransfer_ok h
  · exact absurd heq hne
  · rw [hx, Option.some.injEq] at hsrc
    rw [hy, Option.some.injEq] at hdst
    subst hsrc hdst
    have hox := (Ledger.token?_eq_some.mp hx).1
    have hoy := (Ledger.token?_eq_some.mp hy).1
    refine ⟨_, _, ?_, Ledger.token?_setToken_self ?_, debited_of_authorize hdebit hheld,
      ⟨hc, rfl⟩, ?_⟩
    · rw [Ledger.token?_setToken_of_ne hne, Ledger.token?_setToken_self hox]
    · rw [Ledger.setToken, Ledger.setData_owner, hoy]
    · intro k hs hd
      simp [setToken_eq, hs, hd]

theorem Debited.trans {x x' x'' : TokenAccount} {authority : Pubkey} {a b : ℕ}
    (h : Debited x x' authority a) (h' : Debited x' x'' authority b) :
    Debited x x'' authority (a + b) where
  amount := by
    have h₁ := h.amount
    have h₂ := h'.amount
    omega
  rest := by rw [h'.rest, h.rest]
  undelegated hnone := by
    obtain ⟨hd, ha, ho⟩ := h.undelegated hnone
    obtain ⟨hd', ha', -⟩ := h'.undelegated hd
    exact ⟨hd', ha'.trans ha, ho⟩
  signed := h.signed

/-- The owner's debit of an account without a delegate changes the amount alone. -/
theorem Debited.rest_of_undelegated {x x' : TokenAccount} {authority : Pubkey} {n : ℕ}
    (h : Debited x x' authority n) (hnone : x.delegate = none) : x' = { x with amount := x'.amount } := by
  obtain ⟨hd, ha, -⟩ := h.undelegated hnone
  calc x' = { x with
        amount := x'.amount, delegate := x'.delegate, delegatedAmount := x'.delegatedAmount } := h.rest
    _ = { x with amount := x'.amount } := by rw [hd, ha, ← hnone]

/-- The token accounts of an envelope a settlement moves balances between. -/
def Envelope.tokenKeys (e : Envelope) : List Pubkey :=
  [e.userSourceA.key, e.userDestinationB.key, e.vaultA.key, e.vaultB.key, e.feeVault.key]

/-- The ledger holds the token accounts of `d` at the addresses of `e`. -/
structure TokensAt (L : Ledger) (e : Envelope) (d : EnvelopeData) : Prop where
  userSourceA : L.token? e.userSourceA.key = some d.userSourceA
  userDestinationB : L.token? e.userDestinationB.key = some d.userDestinationB
  vaultA : L.token? e.vaultA.key = some d.vaultA
  vaultB : L.token? e.vaultB.key = some d.vaultB
  feeVault : L.token? e.feeVault.key = some d.feeVault

/-- What a settlement does to the ledger: the five balances move exactly by the terms, and
nothing else changes. -/
structure Settled (L L' : Ledger) (e : Envelope) (d after : EnvelopeData) (authority : Pubkey)
    (t : SettleTerms) : Prop where
  tokens : TokensAt L' e after
  sourceDebit : Debited d.userSourceA after.userSourceA authority t.totalInputDebit.toNat
  total : t.totalInputDebit.toNat = t.amountIn.toNat + t.protocolFee.toNat
  destinationCredit : Credited d.userDestinationB after.userDestinationB t.amountOut.toNat
  vaultACredit : Credited d.vaultA after.vaultA t.amountIn.toNat
  vaultBDebit : Debited d.vaultB after.vaultB e.domain.key t.amountOut.toNat
  feeVaultCredit : Credited d.feeVault after.feeVault t.protocolFee.toNat
  rest : after = { d with
    userSourceA := after.userSourceA, userDestinationB := after.userDestinationB,
    vaultA := after.vaultA, vaultB := after.vaultB, feeVault := after.feeVault }
  frame : ∀ k, k ∉ e.tokenKeys → L' k = L k

theorem reloadTokens_ok {L : Ledger} {e : Envelope} {d after : EnvelopeData}
    (h : reloadTokens L e d = .ok after) :
    TokensAt L e after ∧ after = { d with
      userSourceA := after.userSourceA, userDestinationB := after.userDestinationB,
      vaultA := after.vaultA, vaultB := after.vaultB, feeVault := after.feeVault } := by
  simp only [reloadTokens, except_bind_ok_iff, loadTokenAccount_ok_iff, except_pure_ok_iff] at h
  obtain ⟨_, hs, _, ht, _, hva, _, hvb, _, hfv, rfl⟩ := h
  exact ⟨⟨hs, ht, hva, hvb, hfv⟩, rfl⟩

theorem checkDeltas_ok {before after : EnvelopeData} {t : SettleTerms} {u : Unit}
    (h : checkDeltas before after t = .ok u) :
    before.userSourceA.amount.toNat = t.totalInputDebit.toNat + after.userSourceA.amount.toNat := by
  simp only [checkDeltas, except_bind_ok_iff, exactDebit_ok_iff] at h
  exact h.choose_spec.1

section

variable [Crypto] {cfg : Config}

/-- A settlement that succeeds on distinct token accounts moved exactly its terms. -/
theorem settle_ok {w w' : World} {caller : List AccountInfo} {e : Envelope} {d after : EnvelopeData}
    {authority : Pubkey} {signers : List Pubkey} {t : SettleTerms}
    (h : (settle cfg caller e d authority signers t).run w = (.ok after, w'))
    (htokens : TokensAt w.ledger e d) (hnodup : e.tokenKeys.Nodup) :
    Settled w.ledger w'.ledger e d after authority t ∧
      ((∃ info ∈ caller, info.key = authority ∧ info.isSigner = true) ∨ authority ∈ signers) ∧
      ∃ L₁ L₂, w'.log = w.log ++
        [.token (.transferChecked e.userSourceA.key e.mintA.key e.vaultA.key authority t.amountIn
            d.mintA.decimals) [authority] w.ledger,
          .token (.transferChecked e.userSourceA.key e.mintA.key e.feeVault.key authority
            t.protocolFee d.mintA.decimals) [authority] L₁,
          .token (.transferChecked e.vaultB.key e.mintB.key e.userDestinationB.key e.domain.key
            t.amountOut d.mintB.decimals) [e.domain.key] L₂] := by
  simp only [settle, Exec.bind_ok_iff, Exec.mapError_run_ok_iff, Exec.ofExcept_ok_iff,
    Exec.get_ok_iff, Exec.pure_ok_iff] at h
  obtain ⟨_, w₁, h₁, _, w₂, h₂, _, _, ⟨-, rfl⟩, _, w₃, h₃, _, _, ⟨rfl, rfl⟩, _, _, ⟨hreload, rfl⟩, _, _,
    ⟨hdeltas, rfl⟩, rfl, rfl⟩ := h
  obtain ⟨hsigned, hop₁, -, hlog₁⟩ := tokenInvoke_ok h₁
  obtain ⟨-, hop₂, -, hlog₂⟩ := tokenInvoke_ok h₂
  obtain ⟨-, hop₃, -, hlog₃⟩ := tokenInvoke_ok h₃
  simp only [Envelope.tokenKeys, List.nodup_cons, List.mem_cons, List.not_mem_nil, or_false,
    not_or] at hnodup
  obtain ⟨⟨hsd, hsa, hsb, hsf⟩, ⟨hda, hdb, hdf⟩, ⟨hab, haf⟩, hbf, -⟩ := hnodup
  obtain ⟨x₁, a₁, hx₁, ha₁, hdeb₁, hcred₁, hf₁⟩ :=
    transferChecked_effect hop₁ hsa htokens.userSourceA htokens.vaultA
  have hfv₁ : w₁.ledger.token? e.feeVault.key = some d.feeVault := by
    rw [Ledger.token?_congr (hf₁ _ (Ne.symm hsf) (Ne.symm haf)), htokens.feeVault]
  obtain ⟨x₂, f₂, hx₂, hf₂, hdeb₂, hcred₂, hfr₂⟩ := transferChecked_effect hop₂ hsf hx₁ hfv₁
  have hvb₂ : w₂.ledger.token? e.vaultB.key = some d.vaultB := by
    rw [Ledger.token?_congr (hfr₂ _ (Ne.symm hsb) hbf),
      Ledger.token?_congr (hf₁ _ (Ne.symm hsb) (Ne.symm hab)), htokens.vaultB]
  have hdest₂ : w₂.ledger.token? e.userDestinationB.key = some d.userDestinationB := by
    rw [Ledger.token?_congr (hfr₂ _ (Ne.symm hsd) hdf),
      Ledger.token?_congr (hf₁ _ (Ne.symm hsd) hda), htokens.userDestinationB]
  obtain ⟨b₃, y₃, hb₃, hy₃, hdeb₃, hcred₃, hfr₃⟩ :=
    transferChecked_effect hop₃ (Ne.symm hdb) hvb₂ hdest₂
  have hx₃ : w₃.ledger.token? e.userSourceA.key = some x₂ := by
    rw [Ledger.token?_congr (hfr₃ _ hsb hsd), hx₂]
  have ha₃ : w₃.ledger.token? e.vaultA.key = some a₁ := by
    rw [Ledger.token?_congr (hfr₃ _ hab (Ne.symm hda)),
      Ledger.token?_congr (hfr₂ _ (Ne.symm hsa) haf), ha₁]
  have hfv₃ : w₃.ledger.token? e.feeVault.key = some f₂ := by
    rw [Ledger.token?_congr (hfr₃ _ (Ne.symm hbf) (Ne.symm hdf)), hf₂]
  obtain ⟨hafter, hrest⟩ := reloadTokens_ok hreload
  have hs := Option.some.inj (hx₃.symm.trans hafter.userSourceA)
  have ht := Option.some.inj (hy₃.symm.trans hafter.userDestinationB)
  have hva := Option.some.inj (ha₃.symm.trans hafter.vaultA)
  have hvb := Option.some.inj (hb₃.symm.trans hafter.vaultB)
  have hfv := Option.some.inj (hfv₃.symm.trans hafter.feeVault)
  have hdebit := hdeb₁.trans hdeb₂
  have htotal : t.totalInputDebit.toNat = t.amountIn.toNat + t.protocolFee.toNat := by
    have hsum := checkDeltas_ok hdeltas
    have hamount := hdebit.amount
    rw [← hs] at hsum
    omega
  refine ⟨⟨hafter, ?_, htotal, ?_, ?_, ?_, ?_, hrest, ?_⟩, hsigned authority rfl,
    w₁.ledger, w₂.ledger, by rw [hlog₃, hlog₂, hlog₁]; simp⟩
  · rw [htotal, ← hs]
    exact hdebit
  · rw [← ht]
    exact hcred₃
  · rw [← hva]
    exact hcred₁
  · rw [← hvb]
    exact hdeb₃
  · rw [← hfv]
    exact hcred₂
  · intro k hk
    simp only [Envelope.tokenKeys, List.mem_cons, List.not_mem_nil, or_false, not_or] at hk
    obtain ⟨hks, hkd, hka, hkb, hkf⟩ := hk
    rw [hfr₃ k hkb hkd, hfr₂ k hks hkf, hf₁ k hks hka]

theorem settle_sameOwnership {w w' : World} {caller : List AccountInfo} {e : Envelope}
    {d after : EnvelopeData} {authority : Pubkey} {signers : List Pubkey} {t : SettleTerms}
    (h : (settle cfg caller e d authority signers t).run w = (.ok after, w')) :
    SameOwnership w.ledger w'.ledger := by
  simp only [settle, Exec.bind_ok_iff, Exec.mapError_run_ok_iff, Exec.ofExcept_ok_iff,
    Exec.get_ok_iff, Exec.pure_ok_iff] at h
  obtain ⟨_, w₁, h₁, _, w₂, h₂, _, _, ⟨-, rfl⟩, _, w₃, h₃, _, _, ⟨rfl, rfl⟩, _, _, ⟨-, rfl⟩, _, _,
    ⟨-, rfl⟩, -, rfl⟩ := h
  have hop₁ := processTransfer_sameOwnership (tokenInvoke_ok h₁).2.1
  have hop₂ := processTransfer_sameOwnership (tokenInvoke_ok h₂).2.1
  have hop₃ := processTransfer_sameOwnership (tokenInvoke_ok h₃).2.1
  exact (hop₁.trans hop₂).trans hop₃

/-- A settlement logs its three transfers and nothing else. -/
theorem settle_quiet {w w' : World} {caller : List AccountInfo} {e : Envelope}
    {d after : EnvelopeData} {authority : Pubkey} {signers : List Pubkey} {t : SettleTerms}
    (h : (settle cfg caller e d authority signers t).run w = (.ok after, w')) : Quiet w w' := by
  simp only [settle, Exec.bind_ok_iff, Exec.mapError_run_ok_iff, Exec.ofExcept_ok_iff,
    Exec.get_ok_iff, Exec.pure_ok_iff] at h
  obtain ⟨_, w₁, h₁, _, w₂, h₂, _, _, ⟨-, rfl⟩, _, w₃, h₃, _, _, ⟨rfl, rfl⟩, _, _, ⟨-, rfl⟩, _, _,
    ⟨-, rfl⟩, -, rfl⟩ := h
  exact ((tokenInvoke_quiet h₁).trans (tokenInvoke_quiet h₂)).trans (tokenInvoke_quiet h₃)

end

end ProgrammableSolana.Core
