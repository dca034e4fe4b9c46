import ProgrammableSolana.Core.Math
import ProgrammableSolana.Core.Refinement

/-! What every successful execution comes to, whichever Core runs it: engine calls that cannot
reach protected accounts, one settlement between them, and the accounted fields at the end. -/
namespace ProgrammableSolana.Core

open ProgrammableSolana.Lib ProgrammableSolana.Solana ProgrammableSolana.Lib.Custody

/-- The accounted fields an execution stores. -/
structure PostAccounted where
  a : UInt64
  b : UInt64
  feeA : UInt64

/-- Between the two worlds the engine was called once, with `ix`, and `data` is what the engine
program itself left as return data. -/
def Answered (w w' : World) (ix : Instruction) (engineProgram : Pubkey) (data : List UInt8) : Prop :=
  ∃ c : EngineCall CoreState, c.instruction = ix ∧ c.before = w.ledger ∧
    c.returned = some (engineProgram, data) ∧ engineCalls w'.log = engineCalls w.log ++ [c]

def SettleTerms.flow (t : SettleTerms) : Flow :=
  ⟨t.amountIn.toNat, 0, t.amountOut.toNat, t.protocolFee.toNat⟩

variable [Crypto]

/-- The parts of a successful execution. `engine` tells the accounts the engine was given to
write. -/
structure Executed (cfg : Config) (L L' : Ledger) (e : Envelope) (d after : EnvelopeData)
    (authority : Pubkey) (t : SettleTerms) (post : PostAccounted) (engine : Pubkey → Bool) : Prop where
  bound : Bound cfg L e d
  profiled : Profiled e d
  distinct : e.tokenKeys.Nodup
  engineForeign : ∀ k, engine k = true → (L k).owner ≠ tokenProgram
  fee : t.protocolFee.toNat = ceilFee t.amountIn.toNat protocolFeeBpsV0.toNat
  postA : post.a.toNat = d.domain.accountedA.toNat + t.amountIn.toNat
  postB : d.domain.accountedB.toNat = post.b.toNat + t.amountOut.toNat
  postFeeA : post.feeA.toNat = d.feeLedger.accountedFeeA.toNat + t.protocolFee.toNat
  phases : ∃ L₁ L₂ L₃, Confined cfg.ID engine L L₁ ∧ Settled L₁ L₂ e d after authority t ∧
    Confined cfg.ID engine L₂ L₃ ∧ L' = accountedLedger L₃ e d post.a post.b post.feeA

/-- The envelope as a market record. -/
def recordOf (e : Envelope) (d : EnvelopeData) : MarketRecord where
  market := d.market
  domainKey := e.domain.key
  domain := d.domain
  feeLedgerKey := e.feeLedger.key
  feeLedger := d.feeLedger
  vaultAKey := e.vaultA.key
  vaultA := d.vaultA
  vaultBKey := e.vaultB.key
  vaultB := d.vaultB
  feeVaultKey := e.feeVault.key
  feeVault := d.feeVault

variable {cfg : Config} {L L' : Ledger} {e : Envelope} {d after : EnvelopeData} {authority : Pubkey}
  {t : SettleTerms} {post : PostAccounted} {engine : Pubkey → Bool}

/-- The accounts that pass the checks are exactly those of the market they name. -/
theorem Bound.marketOk (h : Bound cfg L e d) (hinv : Inv cfg L) :
    MarketOk cfg L e.market.key (recordOf e d) := by
  obtain ⟨r, hr, hk, hd⟩ := hinv.domain h.domain
  rw [h.domainMarket] at hr
  obtain ⟨r', hr', hfk, hf⟩ := hinv.feeLedger h.feeLedger
  rw [h.feeLedgerMarket] at hr'
  obtain rfl := hr.unique hr'
  have hm : r.market = d.market := by simpa using hr.market.symm.trans h.market
  have hva : r.vaultAKey = e.vaultA.key := Option.some.inj
    ((createProgramAddress_of_find hr.vaultAAddress).symm.trans (by rw [hk, hd]; exact h.vaultAAddress))
  have hvb : r.vaultBKey = e.vaultB.key := Option.some.inj
    ((createProgramAddress_of_find hr.vaultBAddress).symm.trans (by rw [hk, hd]; exact h.vaultBAddress))
  have hvf : r.feeVaultKey = e.feeVault.key := Option.some.inj
    ((createProgramAddress_of_find hr.feeVaultAddress).symm.trans
      (by rw [hfk, hf]; exact h.feeVaultAddress))
  have ha : r.vaultA = d.vaultA := Option.some.inj ((hva ▸ hr.vaultA).symm.trans h.vaultA)
  have hb : r.vaultB = d.vaultB := Option.some.inj ((hvb ▸ hr.vaultB).symm.trans h.vaultB)
  have hv : r.feeVault = d.feeVault := Option.some.inj ((hvf ▸ hr.feeVault).symm.trans h.feeVault)
  have hrec : r = recordOf e d := by
    cases r
    simp_all [recordOf]
  exact hrec ▸ hr

omit [Crypto] in
theorem accountedLedger_of_ne {post : PostAccounted} {k : Pubkey} (hd : k ≠ e.domain.key)
    (hf : k ≠ e.feeLedger.key) : accountedLedger L e d post.a post.b post.feeA k = L k := by
  rw [accountedLedger, Ledger.setState, Ledger.setData_of_ne hf, Ledger.setState,
    Ledger.setData_of_ne hd]

omit [Crypto] in
theorem accountedLedger_token? {a b feeA : UInt64} (hd : (L e.domain.key).owner ≠ tokenProgram)
    (hf : (L e.feeLedger.key).owner ≠ tokenProgram) (k : Pubkey) :
    (accountedLedger L e d a b feeA).token? k = L.token? k := by
  rw [accountedLedger, Ledger.token?_setState, Ledger.token?_setState hd]
  rw [Ledger.setState, Ledger.setData_owner]
  exact hf

theorem Bound.domain_ne_feeLedger (h : Bound cfg L e d) : e.domain.key ≠ e.feeLedger.key := by
  intro heq
  have hd := h.domain
  rw [heq, h.feeLedger] at hd
  cases hd

theorem Bound.token_of_mem (h : Bound cfg L e d) {k : Pubkey} (hk : k ∈ e.tokenKeys) :
    ∃ x, L.token? k = some x := by
  simp only [Envelope.tokenKeys, List.mem_cons, List.not_mem_nil, or_false] at hk
  rcases hk with rfl | rfl | rfl | rfl | rfl
  · exact ⟨_, h.userSourceA⟩
  · exact ⟨_, h.userDestinationB⟩
  · exact ⟨_, h.vaultA⟩
  · exact ⟨_, h.vaultB⟩
  · exact ⟨_, h.feeVault⟩

theorem Bound.tokensAt (h : Bound cfg L e d) : TokensAt L e d :=
  ⟨h.userSourceA, h.userDestinationB, h.vaultA, h.vaultB, h.feeVault⟩

omit [Crypto] in
/-- A call that cannot write to Token-owned accounts leaves the cached balances right. -/
theorem tokensAt_of_confined (h : TokensAt L e d) (hconf : Confined cfg.ID engine L L')
    (hforeign : ∀ k, engine k = true → (L k).owner ≠ tokenProgram) : TokensAt L' e d := by
  have hkeep : ∀ k x, L.token? k = some x → L'.token? k = some x := by
    intro k x hx
    refine (Ledger.token?_congr (hconf.frame k ?_)).trans hx
    by_contra hne
    exact hforeign k (by simpa using hne) (Ledger.token?_eq_some.mp hx).1
  exact ⟨hkeep _ _ h.userSourceA, hkeep _ _ h.userDestinationB, hkeep _ _ h.vaultA,
    hkeep _ _ h.vaultB, hkeep _ _ h.feeVault⟩

namespace Executed

variable (h : Executed cfg L L' e d after authority t post engine)

include h

theorem frame {k : Pubkey} (hk : engine k = false) (hset : k ∉ e.tokenKeys)
    (hd : k ≠ e.domain.key) (hf : k ≠ e.feeLedger.key) : L' k = L k := by
  obtain ⟨L₁, L₂, L₃, h₁, hs, h₃, rfl⟩ := h.phases
  rw [accountedLedger_of_ne hd hf, h₃.frame k hk, hs.frame k hset, h₁.frame k hk]

private theorem engine_of_token {k : Pubkey} (hk : (L k).owner = tokenProgram) : engine k = false := by
  by_contra hne
  exact h.engineForeign k (by simpa using hne) hk

/-- Token-owned accounts outside the settlement are as they were. -/
theorem token_frame {k : Pubkey} (hk : (L k).owner = tokenProgram) (hset : k ∉ e.tokenKeys) :
    L' k = L k := by
  refine h.frame (h.engine_of_token hk) hset ?_ ?_
  · rintro rfl
    exact cfg.ID_ne_token ((Ledger.state?_eq_some.mp h.bound.domain).1.symm.trans hk)
  · rintro rfl
    exact cfg.ID_ne_token ((Ledger.state?_eq_some.mp h.bound.feeLedger).1.symm.trans hk)

/-- Of the Core's own accounts only the domain and the fee ledger are written. -/
theorem core_frame {k : Pubkey} (hk : (L k).owner = cfg.ID) (hd : k ≠ e.domain.key)
    (hf : k ≠ e.feeLedger.key) : L' k = L k := by
  obtain ⟨L₁, L₂, L₃, h₁, hs, h₃, rfl⟩ := h.phases
  have hset : k ∉ e.tokenKeys := fun hmem => by
    obtain ⟨x, hx⟩ := h.bound.token_of_mem hmem
    exact cfg.ID_ne_token (hk.symm.trans (Ledger.token?_eq_some.mp hx).1)
  have h₂ : L₂ k = L k := (hs.frame k hset).trans (h₁.own k hk)
  rw [accountedLedger_of_ne hd hf, h₃.own k (by rw [h₂, hk]), h₂]

theorem tokens : TokensAt L' e after := by
  obtain ⟨L₁, L₂, L₃, h₁, hs, h₃, rfl⟩ := h.phases
  have hkeep : ∀ k ∈ e.tokenKeys, ∀ x, L₂.token? k = some x →
      (accountedLedger L₃ e d post.a post.b post.feeA).token? k = some x := by
    intro k hk x hx
    obtain ⟨y, hy⟩ := h.bound.token_of_mem hk
    rw [Ledger.token?_congr (accountedLedger_of_ne
        (Ne.symm (Ledger.state?_ne_token? h.bound.domain hy))
        (Ne.symm (Ledger.state?_ne_token? h.bound.feeLedger hy))),
      Ledger.token?_congr (h₃.frame k (h.engine_of_token (Ledger.token?_eq_some.mp hy).1)), hx]
  exact ⟨hkeep _ (by simp [Envelope.tokenKeys]) _ hs.tokens.userSourceA,
    hkeep _ (by simp [Envelope.tokenKeys]) _ hs.tokens.userDestinationB,
    hkeep _ (by simp [Envelope.tokenKeys]) _ hs.tokens.vaultA,
    hkeep _ (by simp [Envelope.tokenKeys]) _ hs.tokens.vaultB,
    hkeep _ (by simp [Envelope.tokenKeys]) _ hs.tokens.feeVault⟩

/-- A Core account is still the Core's when the accounted fields are written. -/
theorem owner_before_write {L₁ L₂ L₃ : Ledger} (h₁ : Confined cfg.ID engine L L₁)
    (hs : Settled L₁ L₂ e d after authority t) (h₃ : Confined cfg.ID engine L₂ L₃) {k : Pubkey}
    {s : CoreState} (hk : L.state? cfg.ID k = some s) : (L₃ k).owner = cfg.ID := by
  have howner := (Ledger.state?_eq_some.mp hk).1
  have hset : k ∉ e.tokenKeys := fun hmem => by
    obtain ⟨x, hx⟩ := h.bound.token_of_mem hmem
    exact Ledger.state?_ne_token? hk hx rfl
  have h₂ : L₂ k = L k := (hs.frame k hset).trans (h₁.own k howner)
  rw [h₃.own k (by rw [h₂, howner]), h₂, howner]

theorem domain : L'.state? cfg.ID e.domain.key =
    some (.domain { d.domain with accountedA := post.a, accountedB := post.b }) := by
  obtain ⟨L₁, L₂, L₃, h₁, hs, h₃, rfl⟩ := h.phases
  rw [accountedLedger, Ledger.state?_setState_of_ne h.bound.domain_ne_feeLedger,
    Ledger.state?_setState_self (h.owner_before_write h₁ hs h₃ h.bound.domain)]

theorem feeLedger : L'.state? cfg.ID e.feeLedger.key =
    some (.feeLedger { d.feeLedger with accountedFeeA := post.feeA }) := by
  obtain ⟨L₁, L₂, L₃, h₁, hs, h₃, rfl⟩ := h.phases
  rw [accountedLedger, Ledger.state?_setState_self]
  rw [Ledger.setState, Ledger.setData_owner, h.owner_before_write h₁ hs h₃ h.bound.feeLedger]

theorem mint_kept {k : Pubkey} (hk : MintOk L k) : MintOk L' k := by
  obtain ⟨m, hm, hfreeze⟩ := hk
  refine ⟨m, (Ledger.mint?_congr (h.token_frame (Ledger.mint?_eq_some.mp hm).1 fun hmem => ?_)).trans
    hm, hfreeze⟩
  obtain ⟨x, hx⟩ := h.bound.token_of_mem hmem
  exact Ledger.token?_ne_mint? hx hm rfl

theorem state_old {k : Pubkey} {s : CoreState} (hs : L'.state? cfg.ID k = some s) :
    ∃ s', L.state? cfg.ID k = some s' := by
  by_cases hd : k = e.domain.key
  · exact ⟨_, hd ▸ h.bound.domain⟩
  by_cases hf : k = e.feeLedger.key
  · exact ⟨_, hf ▸ h.bound.feeLedger⟩
  obtain ⟨L₁, L₂, L₃, h₁, hset, h₃, rfl⟩ := h.phases
  rw [Ledger.state?_congr (accountedLedger_of_ne hd hf)] at hs
  have h₂ := state_of_confined h₃ hs
  refine ⟨s, state_of_confined h₁ ((Ledger.state?_congr (hset.frame k fun hmem => ?_)).symm.trans h₂)⟩
  simp only [Envelope.tokenKeys, List.mem_cons, List.not_mem_nil, or_false] at hmem
  rcases hmem with rfl | rfl | rfl | rfl | rfl
  · exact Ledger.state?_ne_token? h₂ hset.tokens.userSourceA rfl
  · exact Ledger.state?_ne_token? h₂ hset.tokens.userDestinationB rfl
  · exact Ledger.state?_ne_token? h₂ hset.tokens.vaultA rfl
  · exact Ledger.state?_ne_token? h₂ hset.tokens.vaultB rfl
  · exact Ledger.state?_ne_token? h₂ hset.tokens.feeVault rfl

theorem settled : ∃ L₁ L₂, Settled L₁ L₂ e d after authority t := by
  obtain ⟨L₁, L₂, _, _, hs, -⟩ := h.phases
  exact ⟨L₁, L₂, hs⟩

end Executed

/-- A source with an outside owner, or with a delegate, is nobody's vault. -/
theorem source_not_vault (hb : Bound cfg L e d)
    (hsource : ¬ IsPda cfg.ID d.userSourceA.owner ∨ d.userSourceA.delegate ≠ none) {key : Pubkey}
    {r : MarketRecord} (hr : MarketOk cfg L key r) : e.userSourceA.key ∉ r.vaultKeys := by
  intro hmem
  rcases hsource with hs | hs
  · exact hs (hr.vault_owner_isPda hmem hb.userSourceA)
  · obtain ⟨x, _, _, hx, hp, -⟩ := hr.vault_profile hmem
    rw [hb.userSourceA, Option.some.injEq] at hx
    exact hs (hx ▸ hp.delegate)

namespace Executed

variable (h : Executed cfg L L' e d after authority t post engine)

include h

/-- The accounts of another market that an execution may touch at all: a vault of it that is the
output destination. -/
theorem frame_other (hinv : Inv cfg L)
    (hsource : ¬ IsPda cfg.ID d.userSourceA.owner ∨ d.userSourceA.delegate ≠ none) {key' : Pubkey}
    {r' : MarketRecord} (hr' : MarketOk cfg L key' r') (hne : key' ≠ e.market.key) {k : Pubkey}
    (hk : r'.owns key' k ∨ k ∈ r'.vaultKeys) (hdest : k ≠ e.userDestinationB.key) : L' k = L k := by
  have hr := h.bound.marketOk hinv
  rcases hk with hk | hk
  · obtain ⟨s, hs⟩ := hr'.state_of_owns hk
    refine h.core_frame (Ledger.state?_eq_some.mp hs).1 ?_ ?_
    · rintro rfl
      exact hne (hr'.key_of_owns_both hr hk (.inr (.inl rfl)))
    · rintro rfl
      exact hne (hr'.key_of_owns_both hr hk (.inr (.inr rfl)))
  · obtain ⟨x, _, _, hx, -⟩ := hr'.vault_profile hk
    refine h.token_frame (Ledger.token?_eq_some.mp hx).1 fun hmem => ?_
    simp only [Envelope.tokenKeys, List.mem_cons, List.not_mem_nil, or_false] at hmem
    rcases hmem with rfl | hd | hv
    · exact source_not_vault h.bound hsource hr' hk
    · exact hdest hd
    · exact hne (hr'.key_of_vault hr hk (by simpa [MarketRecord.vaultKeys, recordOf] using hv))

theorem spares (hinv : Inv cfg L)
    (hsource : ¬ IsPda cfg.ID d.userSourceA.owner ∨ d.userSourceA.delegate ≠ none) {key' : Pubkey}
    {r' : MarketRecord} (hr' : MarketOk cfg L key' r') (hne : key' ≠ e.market.key) :
    Spares L L' key' r' := by
  have hother := fun k hk hdest => h.frame_other hinv hsource hr' hne (k := k) hk hdest
  have hstate : ∀ k s, L.state? cfg.ID k = some s → k ≠ e.userDestinationB.key := fun k s hs =>
    Ledger.state?_ne_token? hs h.bound.userDestinationB
  refine ⟨hother _ (.inl (.inl rfl)) (hstate _ _ hr'.market),
    hother _ (.inl (.inr (.inl rfl))) (hstate _ _ hr'.domain),
    hother _ (.inl (.inr (.inr rfl))) (hstate _ _ hr'.feeLedger), fun k hk x hx => ?_,
    fun _ => h.mint_kept⟩
  by_cases hdest : k = e.userDestinationB.key
  · obtain ⟨L₁, L₂, hset⟩ := h.settled
    rw [hdest, h.bound.userDestinationB, Option.some.injEq] at hx
    refine ⟨after.userDestinationB.amount, ?_, ?_⟩
    · rw [hdest, h.tokens.userDestinationB, hset.destinationCredit.rest, hx]
    · rw [UInt64.le_iff_toNat_le, hset.destinationCredit.amount, hx]
      exact Nat.le_add_right _ _
  · exact ⟨x.amount, (Ledger.token?_congr (hother k (.inr hk) hdest)).trans hx, UInt64.le_refl _⟩

/-- The market after an execution: its record with the amounts moved. -/
theorem marketOk (hinv : Inv cfg L) :
    MarketOk cfg L' e.market.key ((recordOf e d).rebooked post.a post.b post.feeA
      after.vaultA.amount after.vaultB.amount after.feeVault.amount) := by
  obtain ⟨L₁, L₂, hset⟩ := h.settled
  have hvb := hset.vaultBDebit.rest_of_undelegated h.profiled.vaultB.delegate
  have hmarket : L' e.market.key = L e.market.key := by
    refine h.core_frame (Ledger.state?_eq_some.mp h.bound.market).1 ?_ ?_
    · intro heq
      have hm := h.bound.market
      rw [heq, h.bound.domain] at hm
      cases hm
    · intro heq
      have hm := h.bound.market
      rw [heq, h.bound.feeLedger] at hm
      cases hm
  refine (h.bound.marketOk hinv).rebooked hmarket h.domain h.feeLedger ?_ ?_ ?_ fun _ => h.mint_kept
  · exact hset.vaultACredit.rest ▸ h.tokens.vaultA
  · exact hvb ▸ h.tokens.vaultB
  · exact hset.feeVaultCredit.rest ▸ h.tokens.feeVault

/-- An execution is one step of its own market's books. -/
theorem actsOn (hinv : Inv cfg L)
    (hsource : ¬ IsPda cfg.ID d.userSourceA.owner ∨ d.userSourceA.delegate ≠ none) :
    ActsOn cfg L L' e.market.key (recordOf e d) ((recordOf e d).rebooked post.a post.b post.feeA
      after.vaultA.amount after.vaultB.amount after.feeVault.amount) t.flow where
  before := h.bound.marketOk hinv
  after := h.marketOk hinv
  market := rfl
  moves := by
    obtain ⟨L₁, L₂, hset⟩ := h.settled
    have hA := h.postA
    have hB := h.postB
    have hF := h.postFeeA
    have hvA := hset.vaultACredit.amount
    have hvB := hset.vaultBDebit.amount
    have hvF := hset.feeVaultCredit.amount
    constructor <;> simp only [MarketRecord.book, MarketRecord.rebooked, recordOf, SettleTerms.flow] <;>
      omega
  others _ _ hr' hne := h.spares hinv hsource hr' hne
  old _ _ := h.state_old

end Executed

end ProgrammableSolana.Core
