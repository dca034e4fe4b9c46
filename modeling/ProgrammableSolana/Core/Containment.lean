import ProgrammableSolana.Core.ExecuteEffect
import ProgrammableSolana.Core.Opaque
import ProgrammableSolana.Solana.TokenSteps

/-! What an engine call can reach, by its account metas alone: whoever runs below the call, no
account of the Core or of the Token program changes through it. Settling calls no engine. -/
namespace ProgrammableSolana.Core

open ProgrammableSolana.Lib ProgrammableSolana.Solana

/-- A change of the ledger through the accounts an instruction lists as writable. -/
def OnlyWrites (ix : Instruction) (L L' : Ledger) : Prop :=
  ∀ k, (∀ m ∈ ix.accounts, m.pubkey = k → m.isWritable = false) → L' k = L k

/-- Every market, domain, fee ledger, mint and token account is as it was. -/
structure Kept (cfg : Config) (L L' : Ledger) : Prop where
  core : ∀ k, (L k).owner = cfg.ID → L' k = L k
  token : ∀ k, (L k).owner = tokenProgram → L' k = L k

/-- The typed accounts a handler works on are what the ledger holds at their addresses. -/
structure Cached (cfg : Config) (L : Ledger) (e : Envelope) (d : EnvelopeData) : Prop where
  market : L.state? cfg.ID e.market.key = some (.market d.market)
  domain : L.state? cfg.ID e.domain.key = some (.domain d.domain)
  feeLedger : L.state? cfg.ID e.feeLedger.key = some (.feeLedger d.feeLedger)
  mintA : L.mint? e.mintA.key = some d.mintA
  mintB : L.mint? e.mintB.key = some d.mintB
  tokens : TokensAt L e d

/-- An engine call with the metas `fixed` and one meta for every opaque position, that leaves
everything of the Core and of the Token program alone, and so what the handler has cached. -/
structure Contained (cfg : Config) (L : Ledger) (e : Envelope) (d : EnvelopeData)
    (opaqueInfos : List AccountInfo) (fixedEnvelopeKeys : List Pubkey) (authorized : Bool)
    (fixed : List AccountMeta) (ix : Instruction) : Prop where
  metas : ∃ forwarded, ix.accounts = fixed ++ forwarded ∧
    List.Forall₂ (Forwarded cfg L opaqueInfos fixedEnvelopeKeys authorized) opaqueInfos forwarded
  signers : ∀ m ∈ ix.accounts, m.isSigner = true → m ∈ fixed
  readOnly : authorized = false → ∀ m ∈ ix.accounts, m.isWritable = false
  kept : ∀ L', OnlyWrites ix L L' → Kept cfg L L'
  cached : ∀ L', OnlyWrites ix L L' → Cached cfg L' e d

section

variable {cfg : Config} {L L' : Ledger} {e : Envelope} {d after : EnvelopeData}

theorem Kept.state? (h : Kept cfg L L') {k : Pubkey} {s : CoreState}
    (hs : L.state? cfg.ID k = some s) : L'.state? cfg.ID k = some s := by
  have howner := (Ledger.state?_eq_some.mp hs).1
  rw [Ledger.state?_congr (h.core k howner)]
  exact hs

theorem Kept.mint? (h : Kept cfg L L') {k : Pubkey} {m : Mint} (hm : L.mint? k = some m) :
    L'.mint? k = some m := by
  have howner := (Ledger.mint?_eq_some.mp hm).1
  rw [Ledger.mint?_congr (h.token k howner)]
  exact hm

theorem Kept.token? (h : Kept cfg L L') {k : Pubkey} {x : TokenAccount}
    (hx : L.token? k = some x) : L'.token? k = some x := by
  have howner := (Ledger.token?_eq_some.mp hx).1
  rw [Ledger.token?_congr (h.token k howner)]
  exact hx

theorem Kept.tokensAt (h : Kept cfg L L') (ht : TokensAt L e d) : TokensAt L' e d := by
  constructor
  · exact h.token? ht.userSourceA
  · exact h.token? ht.userDestinationB
  · exact h.token? ht.vaultA
  · exact h.token? ht.vaultB
  · exact h.token? ht.feeVault

theorem Kept.cached (h : Kept cfg L L') (hc : Cached cfg L e d) : Cached cfg L' e d := by
  constructor
  · exact h.state? hc.market
  · exact h.state? hc.domain
  · exact h.state? hc.feeLedger
  · exact h.mint? hc.mintA
  · exact h.mint? hc.mintB
  · exact h.tokensAt hc.tokens

theorem TokensAt.token_of_mem (h : TokensAt L e d) {k : Pubkey} (hk : k ∈ e.tokenKeys) :
    ∃ x, L.token? k = some x := by
  simp only [Envelope.tokenKeys, List.mem_cons, List.not_mem_nil, or_false] at hk
  rcases hk with rfl | rfl | rfl | rfl | rfl
  · exact ⟨_, h.userSourceA⟩
  · exact ⟨_, h.userDestinationB⟩
  · exact ⟨_, h.vaultA⟩
  · exact ⟨_, h.vaultB⟩
  · exact ⟨_, h.feeVault⟩

/-- A settlement moves balances and leaves the rest of what is cached. -/
theorem Settled.cached {authority : Pubkey} {t : SettleTerms}
    (h : Settled L L' e d after authority t) (hc : Cached cfg L e d) : Cached cfg L' e after := by
  have hstate : ∀ k s, L.state? cfg.ID k = some s → L'.state? cfg.ID k = some s := by
    intro k s hs
    have hnot : k ∉ e.tokenKeys := by
      intro hmem
      obtain ⟨x, hx⟩ := hc.tokens.token_of_mem hmem
      exact Ledger.state?_ne_token? hs hx rfl
    rw [Ledger.state?_congr (h.frame k hnot)]
    exact hs
  have hmint : ∀ k m, L.mint? k = some m → L'.mint? k = some m := by
    intro k m hm
    have hnot : k ∉ e.tokenKeys := by
      intro hmem
      obtain ⟨x, hx⟩ := hc.tokens.token_of_mem hmem
      exact Ledger.token?_ne_mint? hx hm rfl
    rw [Ledger.mint?_congr (h.frame k hnot)]
    exact hm
  have hrest := h.rest
  constructor
  · rw [hrest]
    exact hstate _ _ hc.market
  · rw [hrest]
    exact hstate _ _ hc.domain
  · rw [hrest]
    exact hstate _ _ hc.feeLedger
  · rw [hrest]
    exact hmint _ _ hc.mintA
  · rw [hrest]
    exact hmint _ _ hc.mintB
  · exact h.tokens

/-- Forwarding looks at owners and code, which a settlement leaves alone. -/
theorem Forwarded.congr {infos : List AccountInfo} {fixedEnvelopeKeys : List Pubkey}
    {authorized : Bool} {info : AccountInfo} {m : AccountMeta}
    (h : Forwarded cfg L infos fixedEnvelopeKeys authorized info m) (hsame : SameOwnership L L') :
    Forwarded cfg L' infos fixedEnvelopeKeys authorized info m := by
  constructor
  · exact h.pubkey
  · exact h.isSigner
  · exact h.isWritable
  · exact h.notFixed
  · rw [hsame.owner]
    exact h.notCore
  · rw [hsame.executable]
    exact h.notCode
  · rw [hsame.owner]
    exact h.notToken

/-- A call is contained when its first metas are: they list nothing of the Core or of the Token
program as writable. -/
theorem contained_of_metas {opaqueInfos : List AccountInfo} {fixedEnvelopeKeys : List Pubkey}
    {authorized : Bool} {fixed forwarded : List AccountMeta} {ix : Instruction}
    (hmetas : ix.accounts = fixed ++ forwarded)
    (hforwarded : List.Forall₂ (Forwarded cfg L opaqueInfos fixedEnvelopeKeys authorized) opaqueInfos
      forwarded)
    (hforeign : ∀ m ∈ fixed, m.isWritable = true →
      (L m.pubkey).owner ≠ cfg.ID ∧ (L m.pubkey).owner ≠ tokenProgram)
    (hreadOnly : authorized = false → ∀ m ∈ fixed, m.isWritable = false)
    (hcached : Cached cfg L e d) :
    Contained cfg L e d opaqueInfos fixedEnvelopeKeys authorized fixed ix := by
  have hwritable : ∀ m ∈ ix.accounts, m.isWritable = true →
      (L m.pubkey).owner ≠ cfg.ID ∧ (L m.pubkey).owner ≠ tokenProgram := by
    intro m hm hw
    rw [hmetas] at hm
    rcases List.mem_append.mp hm with hm | hm
    · exact hforeign m hm hw
    · obtain ⟨info, -, hf⟩ := exists_of_forall₂_mem hforwarded hm
      exact ⟨hf.notCore, (hf.notToken hw).1⟩
  have hkept : ∀ L', OnlyWrites ix L L' → Kept cfg L L' := by
    intro L' honly
    constructor
    · intro k hk
      apply honly
      intro m hm hkey
      by_contra hw
      have hne := (hwritable m hm (by simpa using hw)).1
      rw [hkey] at hne
      exact hne hk
    · intro k hk
      apply honly
      intro m hm hkey
      by_contra hw
      have hne := (hwritable m hm (by simpa using hw)).2
      rw [hkey] at hne
      exact hne hk
  constructor
  · exact ⟨forwarded, hmetas, hforwarded⟩
  · intro m hm hs
    rw [hmetas] at hm
    rcases List.mem_append.mp hm with hm | hm
    · exact hm
    · obtain ⟨info, -, hf⟩ := exists_of_forall₂_mem hforwarded hm
      rw [hf.isSigner] at hs
      cases hs
  · intro hauth m hm
    rw [hmetas] at hm
    rcases List.mem_append.mp hm with hm | hm
    · exact hreadOnly hauth m hm
    · obtain ⟨info, -, hf⟩ := exists_of_forall₂_mem hforwarded hm
      rw [hf.isWritable, hauth]
      rfl
  · exact hkept
  · intro L' honly
    exact (hkept L' honly).cached hcached

theorem Contained.unchanged {opaqueInfos : List AccountInfo} {fixedEnvelopeKeys : List Pubkey}
    {fixed : List AccountMeta} {ix : Instruction}
    (h : Contained cfg L e d opaqueInfos fixedEnvelopeKeys false fixed ix)
    (honly : OnlyWrites ix L L') : L' = L := by
  funext k
  apply honly
  intro m hm _
  exact h.readOnly rfl m hm

section Settlement

variable [Crypto]

theorem settle_uncalled (caller : List AccountInfo) (e : Envelope) (d : EnvelopeData)
    (sourceAuthority : Pubkey) (sourceSigners : List Pubkey) (t : SettleTerms) :
    (settle cfg caller e d sourceAuthority sourceSigners t).Leaves Uncalled := by
  unfold settle
  apply Exec.Leaves.bind .trans ((tokenInvoke_uncalled _ _ _ _).mapError _)
  intro _
  apply Exec.Leaves.bind .trans ((tokenInvoke_uncalled _ _ _ _).mapError _)
  intro _
  apply Exec.leaves_ofExcept_bind Uncalled.refl
  intro domainSigner
  apply Exec.Leaves.bind .trans ((tokenInvoke_uncalled _ _ _ _).mapError _)
  intro _
  apply Exec.leaves_get_bind
  intro w
  apply Exec.leaves_ofExcept_bind Uncalled.refl
  intro after
  apply Exec.leaves_ofExcept_bind Uncalled.refl
  intro _
  exact Exec.leaves_pure Uncalled.refl _

omit [Crypto] in
theorem writeAccounted_uncalled (e : Envelope) (d : EnvelopeData)
    (accountedA accountedB accountedFeeA : UInt64) :
    (writeAccounted e d accountedA accountedB accountedFeeA).Leaves Uncalled := by
  unfold writeAccounted
  apply Exec.leaves_modify
  intro w
  exact rfl

omit [Crypto] in
theorem emit_uncalled (e : CoreEvent) : (emit e).Leaves Uncalled := by
  unfold emit
  apply Exec.leaves_modify
  intro w
  unfold Uncalled
  simp

end Settlement

theorem Bound.cached [Crypto] (h : Bound cfg L e d) : Cached cfg L e d := by
  constructor
  · exact h.market
  · exact h.domain
  · exact h.feeLedger
  · exact h.mintA
  · exact h.mintB
  · exact h.tokensAt

end

end ProgrammableSolana.Core
