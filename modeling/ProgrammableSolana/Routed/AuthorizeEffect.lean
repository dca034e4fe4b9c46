import ProgrammableSolana.Core.Refinement
import ProgrammableSolana.Routed.Authorize

/-! A successful `authorize_spend` installs one delegate on one account and nothing else. -/
namespace ProgrammableSolana.Routed

open ProgrammableSolana.Lib ProgrammableSolana.Solana ProgrammableSolana.Core

/-- The source once an address may spend an amount from it. -/
def delegated (t : TokenAccount) (spendAuthority : Pubkey) (amount : UInt64) : TokenAccount :=
  { t with delegate := some spendAuthority, delegatedAmount := amount }

section

variable [Crypto]

/-- What the checks on an intent establish. -/
structure IntentChecked (env : Env config) (args : AuthorizeSpendV0Args) (i : CheckedIntent) :
    Prop where
  direct : env.stackHeight = transactionLevelStackHeight
  decoded : Wire.Routed.decodeIntentBinding args.wireIntent.toList = .ok i.binding
  coreProgram : i.binding.coreProgram = ID
  amountIn : 0 < i.binding.amountIn
  maxFee : i.binding.protocolFee ≤ i.binding.maxProtocolFee
  total : i.exactTotalDebit.toNat = i.binding.amountIn.toNat + i.binding.protocolFee.toNat
  maxTotal : i.exactTotalDebit ≤ i.binding.maxTotalInputDebit
  slot : env.slot ≤ i.binding.expiresAtSlot
  intentDigest : Wire.Routed.computeIntentDigest i.binding = .ok i.intentDigest

/-- What a successful authorization did. -/
structure Authorized (env : Env config) (L L' : Ledger) (a : AuthorizeSpendV0)
    (args : AuthorizeSpendV0Args) (t : TokenAccount) (i : CheckedIntent) : Prop extends
    IntentChecked env args i where
  signed : a.user.isSigner = true
  userAuthority : i.binding.userAuthority = a.user.key
  userInput : i.binding.userInput = a.source.key
  mintIn : i.binding.mintIn = a.mint.key
  tokenProgram : i.binding.tokenProgram = a.tokenProgram.key
  spendAuthority : ∃ bump, canonicalSpendAuthority a.source.key i.intentDigest =
    .ok (a.spendAuthority.key, bump)
  source : L.token? a.source.key = some t
  owner : t.owner = a.user.key
  delegate : t.delegate = none
  delegatedAmount : t.delegatedAmount = 0
  held : i.exactTotalDebit ≤ t.amount
  ledger : L' = L.setToken a.source.key (delegated t a.spendAuthority.key i.exactTotalDebit)

theorem checkIntent_ok {env : Env config} {a : AuthorizeSpendV0} {args : AuthorizeSpendV0Args}
    {i : CheckedIntent} (h : checkIntent env a args = .ok i) : IntentChecked env args i := by
  unfold checkIntent at h
  simp only [liftWire, except_bind_ok_iff, require_ok_iff, mapError_ok_iff, okOr_ok_iff,
    checkedAdd_eq_some, except_pure_ok_iff] at h
  obtain ⟨_, hdirect, _, -, binding, hdecoded, _, hcore, _, hamount, _, hmaxFee, total, htotal, _,
    hmaxTotal, _, hslot, digest, hdigest, rfl⟩ := h
  exact ⟨hdirect, hdecoded, hcore, hamount, hmaxFee, htotal, hmaxTotal, hslot, hdigest⟩

omit [Crypto] in
theorem loadAuthorize_ok {L : Ledger} {a : AuthorizeSpendV0} {d : AuthorizeData}
    (h : loadAuthorize L a = .ok d) :
    a.user.isSigner = true ∧ L.token? a.source.key = some d.source := by
  unfold loadAuthorize loadSigner at h
  simp only [except_bind_ok_iff, require_ok_iff, loadTokenAccount_ok_iff,
    except_pure_ok_iff] at h
  obtain ⟨_, hsigned, source, hsource, mint, -, _, -, _, -, _, -, _, -, rfl⟩ := h
  exact ⟨hsigned, hsource⟩

omit [Crypto] in
private theorem approveChecked_ledger {L L' : Ledger} {source mint delegate owner : Pubkey}
    {amount : UInt64} {decimals : UInt8} {signers : List Pubkey} {t : TokenAccount}
    (h : (TokenOp.approveChecked source mint delegate owner amount decimals).apply L signers =
      .ok L') (ht : L.token? source = some t) :
    L' = L.setToken source (delegated t delegate amount) := by
  simp only [TokenOp.apply, processApprove, except_bind_ok_iff, loadToken_ok_iff, require_ok_iff,
    except_pure_ok_iff] at h
  obtain ⟨t', ht', _, -, _, -, _, -, rfl⟩ := h
  rw [ht, Option.some.injEq] at ht'
  rw [ht']
  rfl

theorem authorize_ok {env : Env config} {a : AuthorizeSpendV0} {args : AuthorizeSpendV0Args}
    {w w' : Core.World} {u : Unit}
    (h : (handleAuthorizeSpendV0 env a args).run w = (.ok u, w')) :
    ∃ t i mint decimals e, Authorized env w.ledger w'.ledger a args t i ∧
      w'.log = w.log ++ [.token (.approveChecked a.source.key mint a.spendAuthority.key a.user.key
        i.exactTotalDebit decimals) [a.user.key] w.ledger, .emitted (.spendAuthorized e)] ∧
      e.userInput = a.source.key ∧ e.intentDigest = i.intentDigest := by
  unfold handleAuthorizeSpendV0 emit at h
  simp only [Exec.bind_ok_iff, Exec.get_ok_iff, Exec.ofExcept_ok_iff, Exec.mapError_run_ok_iff,
    Exec.modify_ok_iff] at h
  obtain ⟨_, _, ⟨rfl, rfl⟩, d, _, ⟨hload, rfl⟩, i, _, ⟨hcheck, rfl⟩, spendAuthority, _,
    ⟨hvalid, rfl⟩, _, w₁, hinvoke, _, _, ⟨rfl, rfl⟩, _, _, ⟨-, rfl⟩, rfl⟩ := h
  obtain ⟨hsigned, hsource⟩ := loadAuthorize_ok hload
  unfold validateAuthorize validateUserSourceBeforeAuthorization at hvalid
  simp only [except_bind_ok_iff, require_ok_iff, except_pure_ok_iff, Prod.exists] at hvalid
  obtain ⟨_, -, _, huser, _, hinput, _, hmint, _, htoken, _, -, _, -, _, -, expected, bump, hspend,
    _, hkey, _, -, _, ⟨_, -, _, howner, _, hdelegate, _, hamount, -⟩, _, hheld, rfl⟩ := hvalid
  obtain ⟨-, hop, -, hlog⟩ := tokenInvoke_ok hinvoke
  have hledger := approveChecked_ledger hop hsource
  refine ⟨d.source, i, a.mint.key, d.mint.decimals, _, { checkIntent_ok hcheck with
    signed := hsigned, userAuthority := huser, userInput := hinput, mintIn := hmint,
    tokenProgram := htoken, spendAuthority := ⟨bump, hkey ▸ hspend⟩, source := hsource,
    owner := howner, delegate := hdelegate, delegatedAmount := hamount, held := hheld,
    ledger := hledger }, (congrArg (· ++ _) hlog).trans (List.append_assoc _ _ _), rfl, rfl⟩

namespace Authorized

variable {env : Env config} {L L' : Ledger} {a : AuthorizeSpendV0} {args : AuthorizeSpendV0Args}
  {t : TokenAccount} {i : CheckedIntent}

private theorem token?_source (h : Authorized env L L' a args t i) : L'.token? a.source.key =
    some (delegated t a.spendAuthority.key i.exactTotalDebit) := by
  rw [h.ledger, Ledger.token?_eq_some, setToken_eq, if_pos rfl]
  exact ⟨(Ledger.token?_eq_some.mp h.source).1, rfl⟩

theorem frame (h : Authorized env L L' a args t i) {k : Pubkey} (hk : k ≠ a.source.key) :
    L' k = L k := by
  rw [h.ledger, setToken_eq, if_neg hk]

/-- A user who is no address of the Core delegates from no vault: every market is spared. -/
theorem refines (h : Authorized env L L' a args t i) (huser : ¬ IsPda ID a.user.key) :
    Refines config L 0 L' := by
  have hvault : ∀ key r, MarketOk config L key r → ∀ k ∈ r.vaultKeys, k ≠ a.source.key := by
    rintro key r hr k hk rfl
    have hpda := hr.vault_owner_isPda hk h.source
    rw [h.owner] at hpda
    exact huser hpda
  refine refines_of_spares (fun key r hr => ?_) fun k s hs => ?_
  · refine ⟨h.frame (Ledger.state?_ne_token? hr.market h.source),
      h.frame (Ledger.state?_ne_token? hr.domain h.source),
      h.frame (Ledger.state?_ne_token? hr.feeLedger h.source), fun k hk t ht => ?_,
      fun k ⟨m, hm, hfreeze⟩ => ?_⟩
    · exact ⟨t.amount, (Ledger.token?_congr (h.frame (hvault key r hr k hk))).trans ht,
        UInt64.le_refl _⟩
    · exact ⟨m, (Ledger.mint?_congr (h.frame (Ne.symm (Ledger.token?_ne_mint? h.source hm)))).trans
        hm, hfreeze⟩
  · have hne : k ≠ a.source.key := Ledger.state?_ne_token? hs h.token?_source
    exact ⟨s, (Ledger.state?_congr (h.frame hne)).symm.trans hs⟩

end Authorized

end

end ProgrammableSolana.Routed
