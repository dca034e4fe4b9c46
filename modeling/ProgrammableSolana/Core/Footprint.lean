import ProgrammableSolana.Core.Progress

/-! What an execution does to the ledger, account by account: balances move by fixed amounts, and
three accounts are overwritten. Two such changes commute as long as neither overwrites what the
other touches. -/
namespace ProgrammableSolana.Core

open ProgrammableSolana.Lib ProgrammableSolana.Solana

section

variable {σ : Type} {L L' : Solana.Ledger σ} {k : Pubkey} {m n : UInt64} {x : Account σ}

/-- The account with `n` more tokens, modulo `2 ^ 64`, if it holds tokens at all. -/
def credit (n : UInt64) (x : Account σ) : Account σ :=
  match x.data with
  | .token t => { x with data := .token { t with amount := t.amount + n } }
  | _ => x

private theorem credit_zero : credit 0 x = x := by
  obtain ⟨owner, executable, data⟩ := x
  cases data <;> simp [credit]

private theorem credit_comm : credit m (credit n x) = credit n (credit m x) := by
  obtain ⟨owner, executable, data⟩ := x
  cases data with
  | token t => simp only [credit, UInt64.add_assoc, UInt64.add_comm m n]
  | raw bytes => rfl
  | mint mint => rfl
  | state state => rfl

@[simp] theorem credit_owner : (credit n x).owner = x.owner := by
  unfold credit
  split <;> rfl

@[simp] theorem credit_executable : (credit n x).executable = x.executable := by
  unfold credit
  split <;> rfl

theorem token?_credit (h : L' k = credit n (L k)) {t : TokenAccount} (ht : L.token? k = some t) :
    L'.token? k = some { t with amount := t.amount + n } := by
  obtain ⟨howner, hdata⟩ := Ledger.token?_eq_some.mp ht
  refine Ledger.token?_eq_some.mpr ⟨?_, ?_⟩
  · rw [h, credit_owner, howner]
  · rw [h, credit, hdata]

theorem mint?_credit (h : L' k = credit n (L k)) {t : Mint} (ht : L.mint? k = some t) :
    L'.mint? k = some t := by
  obtain ⟨howner, hdata⟩ := Ledger.mint?_eq_some.mp ht
  have heq : credit n (L k) = L k := by rw [credit, hdata]
  exact Ledger.mint?_eq_some.mpr ⟨by rw [h, heq, howner], by rw [h, heq, hdata]⟩

theorem state?_credit (h : L' k = credit n (L k)) {programId : Pubkey} {s : σ}
    (hs : L.state? programId k = some s) : L'.state? programId k = some s := by
  obtain ⟨howner, hdata⟩ := Ledger.state?_eq_some.mp hs
  have heq : credit n (L k) = L k := by rw [credit, hdata]
  exact Ledger.state?_eq_some.mpr ⟨by rw [h, heq, howner], by rw [h, heq, hdata]⟩

private theorem eq_credit (hsame : SameOwnership L L') {t t' : TokenAccount} (ht : L.token? k = some t)
    (ht' : L'.token? k = some t') (h : t' = { t with amount := t.amount + n }) :
    L' k = credit n (L k) := by
  have hdata := (Ledger.token?_eq_some.mp ht).2
  have hdata' := (Ledger.token?_eq_some.mp ht').2
  have howner := hsame.owner k
  have hexec := hsame.executable k
  unfold credit
  cases hx : L k with
  | mk owner executable data =>
    cases hx' : L' k with
    | mk owner' executable' data' =>
      rw [hx] at hdata howner hexec
      rw [hx'] at hdata' howner hexec
      simp only at hdata hdata' howner hexec
      subst hdata hdata' howner hexec h
      rfl

end

theorem amount_of_credit {a b n : UInt64} (h : b.toNat = a.toNat + n.toNat) : b = a + n := by
  rw [← UInt64.toNat_inj, toNat_add_of_fits (by rw [← h]; exact b.toNat_lt), h]

private theorem amount_of_debit {a b n : UInt64} (h : b.toNat + n.toNat = a.toNat) : b = a + -n := by
  have hsum : a = b + n := amount_of_credit h.symm
  rw [hsum, UInt64.add_assoc, UInt64.add_right_neg, UInt64.add_zero]

/-- What a settlement adds to the balance at an address; a debit adds the negated amount. -/
def SettleTerms.delta (t : SettleTerms) (e : Envelope) (k : Pubkey) : UInt64 :=
  if k = e.userSourceA.key then -t.totalInputDebit
  else if k = e.userDestinationB.key then t.amountOut
  else if k = e.vaultA.key then t.amountIn
  else if k = e.vaultB.key then -t.amountOut
  else if k = e.feeVault.key then t.protocolFee
  else 0

theorem SettleTerms.delta_of_not_mem {t : SettleTerms} {e : Envelope} {k : Pubkey}
    (h : k ∉ e.tokenKeys) : t.delta e k = 0 := by
  simp only [Envelope.tokenKeys, List.mem_cons, List.not_mem_nil, or_false, not_or] at h
  obtain ⟨hs, hd, ha, hb, hf⟩ := h
  simp [delta, hs, hd, ha, hb, hf]

theorem SettleTerms.delta_eq (t : SettleTerms) {e : Envelope} (h : e.tokenKeys.Nodup) :
    t.delta e e.userSourceA.key = -t.totalInputDebit ∧
      t.delta e e.userDestinationB.key = t.amountOut ∧ t.delta e e.vaultA.key = t.amountIn ∧
      t.delta e e.vaultB.key = -t.amountOut ∧ t.delta e e.feeVault.key = t.protocolFee := by
  simp only [Envelope.tokenKeys, List.nodup_cons, List.mem_cons, List.not_mem_nil, or_false,
    not_or] at h
  obtain ⟨⟨hsd, hsa, hsb, hsf⟩, ⟨hda, hdb, hdf⟩, ⟨hab, haf⟩, hbf, -⟩ := h
  refine ⟨?_, ?_, ?_, ?_, ?_⟩
  · simp [delta]
  · simp [delta, Ne.symm hsd]
  · simp [delta, Ne.symm hsa, Ne.symm hda]
  · simp [delta, Ne.symm hsb, Ne.symm hdb, Ne.symm hab]
  · simp [delta, Ne.symm hsf, Ne.symm hdf, Ne.symm haf, Ne.symm hbf]

/-- The accounts an execution overwrites: the engine's state and two of the Core's own. -/
def Envelope.ownKeys (e : Envelope) : List Pubkey :=
  [e.engineState.key, e.domain.key, e.feeLedger.key]

/-- What an execution makes of the account at an address. `state` is the engine state it leaves. -/
def footprint (e : Envelope) (d : EnvelopeData) (t : SettleTerms) (post : PostAccounted)
    (state : Account CoreState) (k : Pubkey) (x : Account CoreState) : Account CoreState :=
  if k = e.engineState.key then state
  else if k = e.domain.key then { x with
    data := .state (.domain { d.domain with accountedA := post.a, accountedB := post.b }) }
  else if k = e.feeLedger.key then { x with
    data := .state (.feeLedger { d.feeLedger with accountedFeeA := post.feeA }) }
  else credit (t.delta e k) x

/-- Neither envelope overwrites an account the other one touches. -/
structure Apart (e e' : Envelope) : Prop where
  own : ∀ k ∈ e.ownKeys, k ∉ e'.ownKeys
  tokens : ∀ k ∈ e.ownKeys, k ∉ e'.tokenKeys
  tokens' : ∀ k ∈ e'.ownKeys, k ∉ e.tokenKeys

section

variable {e e' : Envelope} {d d' : EnvelopeData} {t t' : SettleTerms} {post post' : PostAccounted}
  {state state' x : Account CoreState} {k : Pubkey} {L : Ledger}

theorem footprint_of_not_own (h : k ∉ e.ownKeys) :
    footprint e d t post state k x = credit (t.delta e k) x := by
  simp only [Envelope.ownKeys, List.mem_cons, List.not_mem_nil, or_false, not_or] at h
  obtain ⟨hs, hd, hf⟩ := h
  simp [footprint, hs, hd, hf]

theorem footprint_of_not_mem (h : k ∉ e.ownKeys) (ht : k ∉ e.tokenKeys) :
    footprint e d t post state k x = x := by
  rw [footprint_of_not_own h, SettleTerms.delta_of_not_mem ht, credit_zero]

@[simp] theorem footprint_executable (h : k ≠ e.engineState.key) :
    (footprint e d t post state k x).executable = x.executable := by
  unfold footprint
  rw [if_neg h]
  split
  · rfl
  · split
    · rfl
    · exact credit_executable

theorem footprint_comm (h : Apart e e') :
    Pi.map (footprint e d t post state) (Pi.map (footprint e' d' t' post' state') L) =
      Pi.map (footprint e' d' t' post' state') (Pi.map (footprint e d t post state) L) := by
  funext k
  simp only [Pi.map_apply]
  by_cases hk : k ∈ e.ownKeys
  · have hid : ∀ y, footprint e' d' t' post' state' k y = y := fun y =>
      footprint_of_not_mem (h.own k hk) (h.tokens k hk)
    rw [hid, hid]
  · by_cases hk' : k ∈ e'.ownKeys
    · have hid : ∀ y, footprint e d t post state k y = y := fun y =>
        footprint_of_not_mem hk (h.tokens' k hk')
      rw [hid, hid]
    · simp only [footprint_of_not_own hk, footprint_of_not_own hk']
      exact credit_comm

end

section

variable [Crypto] {cfg : Config} {e : Envelope} {d after : EnvelopeData} {authority : Pubkey}
  {t : SettleTerms}

/-- A settlement by the owner of the source adds to the five balances and changes nothing else. -/
theorem settle_footprint {w w' : World} {caller : List AccountInfo} {signers : List Pubkey}
    (h : (settle cfg caller e d authority signers t).run w = (.ok after, w'))
    (htokens : TokensAt w.ledger e d) (hnodup : e.tokenKeys.Nodup)
    (hsource : d.userSourceA.delegate = none) (hvault : d.vaultB.delegate = none) :
    w'.ledger = Pi.map (fun k => credit (t.delta e k)) w.ledger := by
  have hsame := settle_sameOwnership h
  obtain ⟨hsettled, -⟩ := settle_ok h htokens hnodup
  obtain ⟨hs, hd, ha, hb, hf⟩ := t.delta_eq hnodup
  have hx := hsettled.sourceDebit.rest_of_undelegated hsource
  have hy := hsettled.vaultBDebit.rest_of_undelegated hvault
  funext k
  rw [Pi.map_apply]
  by_cases hmem : k ∈ e.tokenKeys
  · simp only [Envelope.tokenKeys, List.mem_cons, List.not_mem_nil, or_false] at hmem
    rcases hmem with rfl | rfl | rfl | rfl | rfl
    · rw [hs]
      refine eq_credit hsame htokens.userSourceA hsettled.tokens.userSourceA ?_
      rw [← amount_of_debit hsettled.sourceDebit.amount]
      exact hx
    · rw [hd]
      refine eq_credit hsame htokens.userDestinationB hsettled.tokens.userDestinationB ?_
      rw [← amount_of_credit hsettled.destinationCredit.amount]
      exact hsettled.destinationCredit.rest
    · rw [ha]
      refine eq_credit hsame htokens.vaultA hsettled.tokens.vaultA ?_
      rw [← amount_of_credit hsettled.vaultACredit.amount]
      exact hsettled.vaultACredit.rest
    · rw [hb]
      refine eq_credit hsame htokens.vaultB hsettled.tokens.vaultB ?_
      rw [← amount_of_debit hsettled.vaultBDebit.amount]
      exact hy
    · rw [hf]
      refine eq_credit hsame htokens.feeVault hsettled.tokens.feeVault ?_
      rw [← amount_of_credit hsettled.feeVaultCredit.amount]
      exact hsettled.feeVaultCredit.rest
  · rw [SettleTerms.delta_of_not_mem hmem, credit_zero, hsettled.frame k hmem]

omit [Crypto] in
/-- The engine's write, the settlement and the accounted fields together. -/
theorem accountedLedger_footprint {L L₁ : Ledger} {post : PostAccounted}
    (hengine : ∀ k, k ≠ e.engineState.key → L₁ k = L k) (hown : e.ownKeys.Nodup)
    (htokens : ∀ k ∈ e.ownKeys, k ∉ e.tokenKeys) :
    accountedLedger (Pi.map (fun k => credit (t.delta e k)) L₁) e d post.a post.b post.feeA =
      Pi.map (footprint e d t post (L₁ e.engineState.key)) L := by
  simp only [Envelope.ownKeys, List.nodup_cons, List.mem_cons, List.not_mem_nil, or_false,
    not_or] at hown
  obtain ⟨⟨hsd, hsf⟩, hdf, -⟩ := hown
  simp only [Envelope.ownKeys, List.mem_cons, List.not_mem_nil, or_false, forall_eq_or_imp,
    forall_eq] at htokens
  obtain ⟨hs, hd, hf⟩ := htokens
  funext k
  rw [Pi.map_apply]
  by_cases hk : k ∈ e.ownKeys
  · simp only [Envelope.ownKeys, List.mem_cons, List.not_mem_nil, or_false] at hk
    rcases hk with rfl | rfl | rfl
    · rw [accountedLedger_of_ne hsd hsf, footprint, if_pos rfl, Pi.map_apply,
        SettleTerms.delta_of_not_mem hs, credit_zero]
    · rw [accountedLedger, Ledger.setState, Ledger.setData_of_ne hdf, Ledger.setState,
        Ledger.setData_self, footprint, if_neg (Ne.symm hsd), if_pos rfl, Pi.map_apply,
        SettleTerms.delta_of_not_mem hd, credit_zero, hengine _ (Ne.symm hsd)]
    · rw [accountedLedger, Ledger.setState, Ledger.setData_self, Ledger.setState,
        Ledger.setData_of_ne (Ne.symm hdf), footprint, if_neg (Ne.symm hsf), if_neg (Ne.symm hdf),
        if_pos rfl, Pi.map_apply, SettleTerms.delta_of_not_mem hf, credit_zero,
        hengine _ (Ne.symm hsf)]
  · have hk' := hk
    simp only [Envelope.ownKeys, List.mem_cons, List.not_mem_nil, or_false, not_or] at hk'
    rw [footprint_of_not_own hk, accountedLedger_of_ne hk'.2.1 hk'.2.2, Pi.map_apply,
      hengine k hk'.1]

end

end ProgrammableSolana.Core
