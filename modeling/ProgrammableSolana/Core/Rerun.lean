import ProgrammableSolana.Core.Footprint

/-! The checks of an execution on a ledger in which balances have moved: the same accounts pass
again, with the same terms, as long as the moved balances still cover what is asked of them. -/
namespace ProgrammableSolana.Core

open ProgrammableSolana.Lib ProgrammableSolana.Solana

/-- The accounts with `δ` added to their balances. -/
def EnvelopeData.credited (d : EnvelopeData) (e : Envelope) (δ : Pubkey → UInt64) : EnvelopeData :=
  { d with
    userSourceA := { d.userSourceA with amount := d.userSourceA.amount + δ e.userSourceA.key }
    userDestinationB :=
      { d.userDestinationB with amount := d.userDestinationB.amount + δ e.userDestinationB.key }
    vaultA := { d.vaultA with amount := d.vaultA.amount + δ e.vaultA.key }
    vaultB := { d.vaultB with amount := d.vaultB.amount + δ e.vaultB.key }
    feeVault := { d.feeVault with amount := d.feeVault.amount + δ e.feeVault.key } }

/-- The records of the Core and the mints an execution reads. -/
def Envelope.recordKeys (e : Envelope) : List Pubkey :=
  [e.market.key, e.domain.key, e.feeLedger.key, e.mintA.key, e.mintB.key]

/-- `M` is `L` to an execution on `e`, but for balances that moved by `δ`. -/
structure Shows (L M : Ledger) (e : Envelope) (δ : Pubkey → UInt64) : Prop where
  accounts : ∀ k ∈ e.recordKeys ++ e.tokenKeys, M k = credit (δ k) (L k)
  state : M e.engineState.key = L e.engineState.key
  code : ∀ k ∈ [e.engineProgram.key, e.tokenProgram.key], (M k).executable = (L k).executable

/-- The moved balances cover the debit of the source and the accounted fields. -/
structure Affords (e : Envelope) (d : EnvelopeData) (δ : Pubkey → UInt64) (t : SettleTerms) :
    Prop where
  source : t.totalInputDebit ≤ d.userSourceA.amount + δ e.userSourceA.key
  coversA : d.domain.accountedA ≤ d.vaultA.amount + δ e.vaultA.key
  coversB : d.domain.accountedB ≤ d.vaultB.amount + δ e.vaultB.key
  coversFee : d.feeLedger.accountedFeeA ≤ d.feeVault.amount + δ e.feeVault.key

section

variable [Crypto] {cfg : Config} {e : Envelope} {d : EnvelopeData} {L M : Ledger}
  {δ : Pubkey → UInt64}

omit [Crypto] in
theorem Shows.loads (h : Shows L M e δ) (hload : loadEnvelope cfg L e = .ok d) :
    loadEnvelope cfg M e = .ok (d.credited e δ) := by
  have hrecord : ∀ k ∈ e.recordKeys, M k = credit (δ k) (L k) := fun k hk =>
    h.accounts k (List.mem_append_left _ hk)
  have htoken : ∀ k ∈ e.tokenKeys, M k = credit (δ k) (L k) := fun k hk =>
    h.accounts k (List.mem_append_right _ hk)
  have hcode := h.code e.tokenProgram.key (by simp)
  simp only [loadEnvelope, except_bind_ok_iff, loadMarket_ok_iff cfg.ID_ne_system,
    loadDomain_ok_iff cfg.ID_ne_system, loadFeeLedger_ok_iff cfg.ID_ne_system,
    loadMintAccount_ok_iff, loadTokenAccount_ok_iff, loadTokenProgram, require_ok_iff,
    except_pure_ok_iff] at hload ⊢
  simp only [Envelope.recordKeys, Envelope.tokenKeys, List.mem_cons, List.not_mem_nil, or_false,
    forall_eq_or_imp, forall_eq] at hrecord htoken
  obtain ⟨hm, hd, hf, hma, hmb⟩ := hrecord
  obtain ⟨hs, ht, ha, hb, hv⟩ := htoken
  obtain ⟨_, hm', _, hd', _, hf', _, hma', _, hmb', _, hs', _, ht', _, ha', _, hb', _, hv', _,
    ⟨_, hkey, hexec⟩, rfl⟩ := hload
  exact ⟨_, state?_credit hm hm', _, state?_credit hd hd', _, state?_credit hf hf', _,
    mint?_credit hma hma', _, mint?_credit hmb hmb', _, token?_credit hs hs', _,
    token?_credit ht ht', _, token?_credit ha ha', _, token?_credit hb hb', _,
    token?_credit hv hv', (), ⟨(), hkey, hcode.trans hexec⟩, rfl⟩

theorem Shows.constrains (h : Shows L M e δ) (authority : Option Pubkey) :
    constrainEnvelope cfg M e (d.credited e δ) authority = constrainEnvelope cfg L e d authority := by
  unfold constrainEnvelope
  rw [h.state]
  cases authority <;> rfl

theorem Shows.binds (h : Shows L M e δ) :
    bindEnvelope cfg M e (d.credited e δ) = bindEnvelope cfg L e d := by
  have hcode := h.code e.engineProgram.key (by simp)
  unfold bindEnvelope
  rw [h.state, hcode]
  rfl

omit [Crypto] in
theorem Affords.profiles {t : SettleTerms} (h : Affords e d δ t) {authority : Option Pubkey}
    {u : Unit} (hprofile : profileEnvelope e d authority = .ok u) :
    profileEnvelope e (d.credited e δ) authority = .ok () := by
  simp only [profileEnvelope, except_bind_ok_iff, requireRawCoversAccounted,
    require_ok_iff] at hprofile ⊢
  obtain ⟨_, hA, _, hB, _, hsource, _, hdest, _, hva, _, hvb, _, hfv, _, -, _, -, -⟩ := hprofile
  refine ⟨(), hA, (), hB, (), ?_, (), hdest, (), hva, (), hvb, (), hfv, (), h.coversA, (),
    h.coversB, h.coversFee⟩
  cases authority <;> exact hsource

end

end ProgrammableSolana.Core
