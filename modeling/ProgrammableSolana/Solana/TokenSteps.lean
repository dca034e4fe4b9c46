import ProgrammableSolana.Solana.Token

/-! What one Token instruction can do to one account, said once: every later fact about
token accounts under foreign instructions is a case analysis on `KeyStep`. -/
namespace ProgrammableSolana.Solana

open ProgrammableSolana.Lib

variable {σ : Type} {L L' : Ledger σ} {signers : List Pubkey}

/-- How an instruction can change an initialised token account, and by whose authority. -/
inductive AccountStep (L : Ledger σ) (signers : List Pubkey) (op : TokenOp) (key : Pubkey) :
    TokenAccount → TokenAccount → Prop where
  | credit {t : TokenAccount} {amount : UInt64} (h : t.amount ≤ amount) :
      AccountStep L signers op key t { t with amount }
  | ownerDebit {t : TokenAccount} {amount : UInt64} (howner : t.owner ∈ signers) :
      AccountStep L signers op key t { t with amount := t.amount - amount }
  | delegateDebit {t : TokenAccount} {delegate : Pubkey} {amount : UInt64}
      (hdelegate : t.delegate = some delegate) (hsigned : delegate ∈ signers)
      (hallowed : amount ≤ t.delegatedAmount) (hheld : amount ≤ t.amount) :
      AccountStep L signers op key t { t with
        amount := t.amount - amount
        delegatedAmount := t.delegatedAmount - amount
        delegate := if t.delegatedAmount - amount = 0 then none else some delegate }
  | approve {t : TokenAccount} {delegate : Pubkey} {amount : UInt64} (howner : t.owner ∈ signers)
      (hop : op.Approves key delegate t.owner amount) :
      AccountStep L signers op key t
        { t with delegate := some delegate, delegatedAmount := amount }
  | revoke {t : TokenAccount} (howner : t.owner ∈ signers) :
      AccountStep L signers op key t { t with delegate := none, delegatedAmount := 0 }
  | setOwner {t : TokenAccount} {owner : Pubkey} {closeAuthority : Option Pubkey}
      (howner : t.owner ∈ signers) :
      AccountStep L signers op key t
        { t with owner, delegate := none, delegatedAmount := 0, closeAuthority }
  | setCloseAuthority {t : TokenAccount} {closeAuthority : Option Pubkey}
      (hsigned : t.closeAuthority.getD t.owner ∈ signers) :
      AccountStep L signers op key t { t with closeAuthority }
  | freeze {t : TokenAccount} {state : AccountState} {m : Mint} {authority : Pubkey}
      (hmint : L.mint? t.mint = some m) (hfreeze : m.freezeAuthority = some authority)
      (hsigned : authority ∈ signers) :
      AccountStep L signers op key t { t with state }

/-- What an instruction leaves of a mint. -/
def MintStep (m m' : Mint) : Prop :=
  m'.decimals = m.decimals ∧ m'.isInitialized = m.isInitialized ∧
    (m.freezeAuthority = none → m'.freezeAuthority = none)

/-- What an instruction does at one address: nothing, unless it names the address writable. -/
inductive KeyStep (L L' : Ledger σ) (signers : List Pubkey) (op : TokenOp) (key : Pubkey) : Prop where
  | same (h : L' key = L key)
  | account (hw : key ∈ op.writes) {t t' : TokenAccount} (ht : L.token? key = some t)
      (h : L' key = { L key with data := .token t' }) (hstep : AccountStep L signers op key t t')
  | mint (hw : key ∈ op.writes) {m m' : Mint} (hm : L.mint? key = some m)
      (h : L' key = { L key with data := .mint m' }) (hstep : MintStep m m')
  | createMint (hw : key ∈ op.writes) {m : Mint} (hblank : (L key).Blank)
      (howner : (L key).owner = tokenProgram) (h : L' key = { L key with data := .mint m })
  | createAccount (hw : key ∈ op.writes) {t : TokenAccount} (hblank : (L key).Blank)
      (howner : (L key).owner = tokenProgram) (h : L' key = { L key with data := .token t })
      (hdelegate : t.delegate = none)
  | close (hw : key ∈ op.writes) {t : TokenAccount} (ht : L.token? key = some t)
      (hsigned : t.closeAuthority.getD t.owner ∈ signers)
      (hempty : t.isNative = none → t.amount = 0)
      (h : L' key = { L key with owner := systemProgram, data := .raw [] })

theorem loadToken_ok_iff {key : Pubkey} {t : TokenAccount} :
    loadToken L key = .ok t ↔ L.token? key = some t := by
  simp [loadToken]

theorem loadMint_ok_iff {key : Pubkey} {m : Mint} : loadMint L key = .ok m ↔ L.mint? key = some m := by
  simp [loadMint]

theorem validateOwner_ok_iff {expected authority : Pubkey} {u : Unit} :
    validateOwner signers expected authority = .ok u ↔ authority = expected ∧ authority ∈ signers := by
  simp [validateOwner, except_bind_ok_iff]

/-- A debit is signed by the delegate, within the allowance, or by the owner. -/
theorem authorizeDebit_ok {t t' : TokenAccount} {authority : Pubkey} {amount : UInt64}
    (h : authorizeDebit signers t authority amount = .ok t') :
    (t.delegate = some authority ∧ authority ∈ signers ∧ amount ≤ t.delegatedAmount ∧
      t' = { t with
        delegatedAmount := t.delegatedAmount - amount
        delegate := if t.delegatedAmount - amount = 0 then none else some authority }) ∨
    (t.delegate ≠ some authority ∧ t.owner = authority ∧ authority ∈ signers ∧ t' = t) := by
  unfold authorizeDebit at h
  by_cases hd : t.delegate = some authority
  · simp only [hd, if_true, except_bind_ok_iff, require_ok_iff, except_pure_ok_iff] at h
    obtain ⟨_, hs, _, ha, rfl⟩ := h
    exact .inl ⟨hd, hs, ha, rfl⟩
  · simp only [hd, if_false, except_bind_ok_iff, validateOwner_ok_iff, except_pure_ok_iff] at h
    obtain ⟨_, ⟨ho, hs⟩, rfl⟩ := h
    exact .inr ⟨hd, ho.symm, hs, rfl⟩

private theorem accountStep_debit {t t' : TokenAccount} {op : TokenOp} {key authority : Pubkey}
    {amount : UInt64} (h : authorizeDebit signers t authority amount = .ok t')
    (hheld : amount ≤ t.amount) :
    AccountStep L signers op key t { t' with amount := t.amount - amount } := by
  rcases authorizeDebit_ok h with ⟨hd, hs, ha, rfl⟩ | ⟨-, ho, hs, rfl⟩
  · exact .delegateDebit hd hs ha hheld
  · exact .ownerDebit (ho ▸ hs)

/-- A transfer between two accounts in full: the checks it made and the ledger it left. -/
theorem processTransfer_ok {source destination authority : Pubkey} {amount : UInt64}
    {checked : Option (Pubkey × UInt8)}
    (h : processTransfer L signers source destination authority amount checked = .ok L') :
    ∃ src dst debited, L.token? source = some src ∧ L.token? destination = some dst ∧
      amount ≤ src.amount ∧ src.mint = dst.mint ∧
      authorizeDebit signers src authority amount = .ok debited ∧
      ((source = destination ∧ L' = L) ∨
        (source ≠ destination ∧ ∃ credited, credited.toNat = dst.amount.toNat + amount.toNat ∧
          L' = (L.setToken source { debited with amount := src.amount - amount }).setToken destination
            { dst with amount := credited })) := by
  simp only [processTransfer, except_bind_ok_iff, loadToken_ok_iff, require_ok_iff] at h
  obtain ⟨src, hsrc, dst, hdst, _, -, _, hheld, _, hmint, _, -, debited, hdebit, h⟩ := h
  refine ⟨src, dst, debited, hsrc, hdst, hheld, hmint, hdebit, ?_⟩
  by_cases hself : source = destination
  · simp only [hself, if_true, except_pure_ok_iff] at h
    exact .inl ⟨hself, h.symm⟩
  · simp only [hself, if_false, except_bind_ok_iff, okOr_ok_iff, checkedAdd_eq_some,
      except_pure_ok_iff] at h
    obtain ⟨credited, hc, rfl⟩ := h
    exact .inr ⟨hself, credited, hc, rfl⟩

theorem setToken_eq {key k : Pubkey} {t : TokenAccount} :
    L.setToken key t k = if k = key then { L k with data := .token t } else L k := by
  by_cases h : k = key
  · subst h
    simp [Ledger.setToken]
  · simp [Ledger.setToken, Ledger.setData_of_ne h, h]

/-- Two ledgers that agree on who owns an address and on whether it is code. -/
structure SameOwnership (L L' : Ledger σ) : Prop where
  owner : ∀ k, (L' k).owner = (L k).owner
  executable : ∀ k, (L' k).executable = (L k).executable

theorem SameOwnership.refl (L : Ledger σ) : SameOwnership L L := ⟨fun _ => rfl, fun _ => rfl⟩

theorem SameOwnership.trans {L'' : Ledger σ} (h : SameOwnership L L') (h' : SameOwnership L' L'') :
    SameOwnership L L'' :=
  ⟨fun k => (h'.owner k).trans (h.owner k), fun k => (h'.executable k).trans (h.executable k)⟩

/-- A transfer changes data alone. -/
theorem processTransfer_sameOwnership {source destination authority : Pubkey} {amount : UInt64}
    {checked : Option (Pubkey × UInt8)}
    (h : processTransfer L signers source destination authority amount checked = .ok L') :
    SameOwnership L L' := by
  obtain ⟨_, _, _, -, -, -, -, -, ⟨-, rfl⟩ | ⟨-, _, -, rfl⟩⟩ := processTransfer_ok h
  · exact .refl _
  · exact ⟨fun k => by simp [Ledger.setToken], fun k => by simp [Ledger.setToken]⟩

private theorem setMint_eq {key k : Pubkey} {m : Mint} :
    L.setMint key m k = if k = key then { L k with data := .mint m } else L k := by
  by_cases h : k = key
  · subst h
    simp [Ledger.setMint]
  · simp [Ledger.setMint, Ledger.setData_of_ne h, h]

/-- An instruction that rewrites one account takes an account step there. -/
theorem keyStep_setToken {op : TokenOp} {key k : Pubkey} {t t' : TokenAccount}
    (hw : key ∈ op.writes) (ht : L.token? key = some t) (hstep : AccountStep L signers op key t t') :
    KeyStep L (L.setToken key t') signers op k := by
  by_cases h : k = key
  · subst h
    exact .account hw ht (by simp [setToken_eq]) hstep
  · exact .same (by simp [setToken_eq, h])

private theorem keyStep_setMint {op : TokenOp} {key k : Pubkey} {m m' : Mint}
    (hw : key ∈ op.writes) (hm : L.mint? key = some m) (hstep : MintStep m m') :
    KeyStep L (L.setMint key m') signers op k := by
  by_cases h : k = key
  · subst h
    exact .mint hw hm (by simp [setMint_eq]) hstep
  · exact .same (by simp [setMint_eq, h])

/-- Minting and burning rewrite an account and its mint. -/
theorem keyStep_setToken_setMint {op : TokenOp} {key mint k : Pubkey} {t t' : TokenAccount}
    {m m' : Mint} (hw : key ∈ op.writes) (hw' : mint ∈ op.writes) (ht : L.token? key = some t)
    (hm : L.mint? mint = some m) (hstep : AccountStep L signers op key t t')
    (hmstep : MintStep m m') :
    KeyStep L ((L.setToken key t').setMint mint m') signers op k := by
  have hne : key ≠ mint := Ledger.token?_ne_mint? ht hm
  by_cases hk : k = key
  · subst hk
    exact .account hw ht (by simp [setMint_eq, setToken_eq, hne]) hstep
  · by_cases hm' : k = mint
    · subst hm'
      exact .mint hw' hm (by simp [setMint_eq, setToken_eq, hk]) hmstep
    · exact .same (by simp [setMint_eq, setToken_eq, hk, hm'])

private theorem le_of_toNat_add {a b c : UInt64} (h : c.toNat = a.toNat + b.toNat) : a ≤ c := by
  rw [UInt64.le_iff_toNat_le]
  omega

private theorem keyStep_transfer {op : TokenOp} {source destination authority : Pubkey} {amount : UInt64}
    {checked : Option (Pubkey × UInt8)}
    (h : processTransfer L signers source destination authority amount checked = .ok L')
    (hs : source ∈ op.writes) (hd : destination ∈ op.writes) (k : Pubkey) :
    KeyStep L L' signers op k := by
  obtain ⟨src, dst, debited, hsrc, hdst, hheld, -, hdebit, ⟨-, rfl⟩ | ⟨hne, credited, hc, rfl⟩⟩ :=
    processTransfer_ok h
  · exact .same rfl
  · by_cases hkd : k = destination
    · subst hkd
      have hkey : k ≠ source := fun h => hne h.symm
      exact .account hd hdst (by simp [setToken_eq, hkey]) (.credit (le_of_toNat_add hc))
    · by_cases hks : k = source
      · subst hks
        exact .account hs hsrc (by simp [setToken_eq, hkd]) (accountStep_debit hdebit hheld)
      · exact .same (by simp [setToken_eq, hkd, hks])

private theorem keyStep_approve {op : TokenOp} {source delegate owner : Pubkey} {amount : UInt64}
    {checked : Option (Pubkey × UInt8)}
    (h : processApprove L signers source delegate owner amount checked = .ok L')
    (hw : source ∈ op.writes) (hop : op.Approves source delegate owner amount) (k : Pubkey) :
    KeyStep L L' signers op k := by
  simp only [processApprove, except_bind_ok_iff, loadToken_ok_iff, require_ok_iff,
    validateOwner_ok_iff, except_pure_ok_iff] at h
  obtain ⟨src, hsrc, _, -, _, -, _, ⟨rfl, hs⟩, rfl⟩ := h
  exact keyStep_setToken hw hsrc (.approve hs hop)

private theorem keyStep_toggleFreeze {op : TokenOp} {account mint authority : Pubkey} {freeze : Bool}
    (h : processToggleFreezeAccount L signers account mint authority freeze = .ok L')
    (hw : account ∈ op.writes) (k : Pubkey) : KeyStep L L' signers op k := by
  simp only [processToggleFreezeAccount, except_bind_ok_iff, loadToken_ok_iff, loadMint_ok_iff,
    require_ok_iff, okOr_ok_iff, validateOwner_ok_iff, except_pure_ok_iff] at h
  obtain ⟨t, ht, _, -, _, -, _, rfl, m, hm, current, hcur, _, ⟨rfl, hs⟩, rfl⟩ := h
  exact keyStep_setToken hw ht (.freeze hm hcur hs)

/-- The inversion of the whole instruction set, one account at a time. -/
theorem TokenOp.apply_cases {op : TokenOp} (h : op.apply L signers = .ok L') (k : Pubkey) :
    KeyStep L L' signers op k := by
  cases op with
  | initializeMint mint decimals mintAuthority freezeAuthority =>
    simp only [TokenOp.apply, processInitializeMint, except_bind_ok_iff, require_ok_iff,
      except_pure_ok_iff] at h
    obtain ⟨_, ⟨howner, hblank⟩, rfl⟩ := h
    by_cases hk : k = mint
    · subst hk
      exact .createMint (by simp [TokenOp.writes]) hblank howner (setMint_eq.trans (if_pos rfl))
    · exact .same (by simp [setMint_eq, hk])
  | initializeAccount account mint owner nativeBalance rentExemptReserve =>
    simp only [TokenOp.apply, processInitializeAccount, except_bind_ok_iff, require_ok_iff,
      except_pure_ok_iff] at h
    obtain ⟨_, ⟨howner, hblank⟩, _, -, rfl⟩ := h
    by_cases hk : k = account
    · subst hk
      exact .createAccount (by simp [TokenOp.writes]) hblank howner (setToken_eq.trans (if_pos rfl)) rfl
    · exact .same (by simp [setToken_eq, hk])
  | transfer source destination authority amount =>
    exact keyStep_transfer h (by simp [TokenOp.writes]) (by simp [TokenOp.writes]) k
  | transferChecked source mint destination authority amount decimals =>
    exact keyStep_transfer h (by simp [TokenOp.writes]) (by simp [TokenOp.writes]) k
  | approve source delegate owner amount => exact keyStep_approve h (by simp [TokenOp.writes]) (.inl rfl) k
  | approveChecked source mint delegate owner amount decimals =>
    exact keyStep_approve h (by simp [TokenOp.writes]) (.inr ⟨mint, decimals, rfl⟩) k
  | revoke source owner =>
    simp only [TokenOp.apply, processRevoke, except_bind_ok_iff, loadToken_ok_iff, require_ok_iff,
      validateOwner_ok_iff, except_pure_ok_iff] at h
    obtain ⟨src, hsrc, _, -, _, ⟨rfl, hs⟩, rfl⟩ := h
    exact keyStep_setToken (by simp [TokenOp.writes]) hsrc (.revoke hs)
  | setAccountOwner account newOwner authority =>
    simp only [TokenOp.apply, processSetAccountOwner, except_bind_ok_iff, loadToken_ok_iff,
      require_ok_iff, validateOwner_ok_iff, except_pure_ok_iff] at h
    obtain ⟨t, ht, _, -, _, ⟨rfl, hs⟩, rfl⟩ := h
    exact keyStep_setToken (by simp [TokenOp.writes]) ht (.setOwner hs)
  | setCloseAuthority account newAuthority authority =>
    simp only [TokenOp.apply, processSetCloseAuthority, except_bind_ok_iff, loadToken_ok_iff,
      require_ok_iff, validateOwner_ok_iff, except_pure_ok_iff] at h
    obtain ⟨t, ht, _, -, _, ⟨rfl, hs⟩, rfl⟩ := h
    exact keyStep_setToken (by simp [TokenOp.writes]) ht (.setCloseAuthority hs)
  | setMintAuthority mint newAuthority authority =>
    simp only [TokenOp.apply, processSetMintAuthority, except_bind_ok_iff, loadMint_ok_iff,
      okOr_ok_iff, validateOwner_ok_iff, except_pure_ok_iff] at h
    obtain ⟨m, hm, current, -, _, -, rfl⟩ := h
    exact keyStep_setMint (by simp [TokenOp.writes]) hm ⟨rfl, rfl, id⟩
  | setFreezeAuthority mint newAuthority authority =>
    simp only [TokenOp.apply, processSetFreezeAuthority, except_bind_ok_iff, loadMint_ok_iff,
      okOr_ok_iff, validateOwner_ok_iff, except_pure_ok_iff] at h
    obtain ⟨m, hm, current, hcur, _, -, rfl⟩ := h
    exact keyStep_setMint (by simp [TokenOp.writes]) hm ⟨rfl, rfl, fun hnone => by simp [hnone] at hcur⟩
  | mintTo mint account authority amount =>
    simp only [TokenOp.apply, processMintTo, except_bind_ok_iff, loadToken_ok_iff, loadMint_ok_iff,
      require_ok_iff, okOr_ok_iff, validateOwner_ok_iff, checkedAdd_eq_some,
      except_pure_ok_iff] at h
    obtain ⟨t, ht, _, -, _, -, _, -, m, hm, _, -, _, -, credited, hc, supply, -, rfl⟩ := h
    exact keyStep_setToken_setMint (by simp [TokenOp.writes]) (by simp [TokenOp.writes]) ht hm
      (.credit (le_of_toNat_add hc)) ⟨rfl, rfl, id⟩
  | burn account mint authority amount =>
    simp only [TokenOp.apply, processBurn, except_bind_ok_iff, loadToken_ok_iff, loadMint_ok_iff,
      require_ok_iff, okOr_ok_iff, except_pure_ok_iff] at h
    obtain ⟨t, ht, _, -, _, -, _, hheld, _, -, m, hm, debited, hdebit, supply, -, rfl⟩ := h
    exact keyStep_setToken_setMint (by simp [TokenOp.writes]) (by simp [TokenOp.writes]) ht hm
      (accountStep_debit hdebit hheld) ⟨rfl, rfl, id⟩
  | closeAccount account destination authority =>
    simp only [TokenOp.apply, processCloseAccount, except_bind_ok_iff, loadToken_ok_iff,
      require_ok_iff, validateOwner_ok_iff, except_pure_ok_iff] at h
    obtain ⟨_, -, t, ht, _, hempty, _, ⟨rfl, hs⟩, rfl⟩ := h
    by_cases hk : k = account
    · subst hk
      exact .close (by simp [TokenOp.writes]) ht hs (fun hn => hempty.resolve_left (by simp [hn]))
        (Ledger.assign_self _ _ _)
    · exact .same (Ledger.assign_of_ne hk _ _)
  | freezeAccount account mint authority =>
    exact keyStep_toggleFreeze h (by simp [TokenOp.writes]) k
  | thawAccount account mint authority =>
    exact keyStep_toggleFreeze h (by simp [TokenOp.writes]) k
  | syncNative account nativeBalance =>
    simp only [TokenOp.apply, processSyncNative, except_bind_ok_iff, loadToken_ok_iff,
      require_ok_iff, except_pure_ok_iff] at h
    obtain ⟨t, ht, _, -, _, hle, rfl⟩ := h
    exact keyStep_setToken (by simp [TokenOp.writes]) ht (.credit hle)

/-- No authority over `t` is among the signers. -/
structure Unsigned (t : TokenAccount) (signers : List Pubkey) : Prop where
  owner : t.owner ∉ signers
  delegate : ∀ d, t.delegate = some d → d ∉ signers
  closeAuthority : ∀ c, t.closeAuthority = some c → c ∉ signers

theorem Unsigned.closer {t : TokenAccount} (h : Unsigned t signers) :
    t.closeAuthority.getD t.owner ∉ signers := by
  cases hc : t.closeAuthority with
  | none => exact h.owner
  | some c => exact h.closeAuthority c hc

/-- Without one of its authorities an account can only gain tokens, or be frozen. -/
theorem KeyStep.unsigned {op : TokenOp} {k : Pubkey} {t : TokenAccount}
    (hk : KeyStep L L' signers op k) (ht : L.token? k = some t) (hu : Unsigned t signers) :
    ∃ amount state, L' k = { L k with data := .token { t with amount, state } } ∧
      t.amount ≤ amount ∧
      (∀ m, L.mint? t.mint = some m → m.freezeAuthority = none → state = t.state) := by
  obtain ⟨howner, hdata⟩ := Ledger.token?_eq_some.mp ht
  cases hk with
  | same h => exact ⟨t.amount, t.state, by rw [h, ← hdata], UInt64.le_refl _, fun _ _ _ => rfl⟩
  | account _ ht₁ h hstep =>
    rw [ht, Option.some.injEq] at ht₁
    subst ht₁
    cases hstep with
    | credit hle => exact ⟨_, t.state, h, hle, fun _ _ _ => rfl⟩
    | ownerDebit hs => exact absurd hs hu.owner
    | delegateDebit hd hs => exact absurd hs (hu.delegate _ hd)
    | approve hs => exact absurd hs hu.owner
    | revoke hs => exact absurd hs hu.owner
    | setOwner hs => exact absurd hs hu.owner
    | setCloseAuthority hs => exact absurd hs hu.closer
    | freeze hm hf =>
      refine ⟨t.amount, _, h, UInt64.le_refl _, fun m' hm' hnone => ?_⟩
      rw [hm, Option.some.injEq] at hm'
      rw [hm', hnone] at hf
      cases hf
  | mint _ hm => exact absurd rfl (Ledger.token?_ne_mint? ht hm)
  | createMint _ hblank => simp [Account.Blank, hdata] at hblank
  | createAccount _ hblank => simp [Account.Blank, hdata] at hblank
  | close _ ht₁ hs =>
    rw [ht, Option.some.injEq] at ht₁
    exact absurd hs (ht₁ ▸ hu.closer)

theorem KeyStep.mint_kept {op : TokenOp} {k : Pubkey} {m : Mint} (hk : KeyStep L L' signers op k)
    (hm : L.mint? k = some m) : ∃ m', L'.mint? k = some m' ∧ MintStep m m' := by
  obtain ⟨howner, hdata⟩ := Ledger.mint?_eq_some.mp hm
  cases hk with
  | same h => exact ⟨m, by rw [Ledger.mint?_congr h, hm], rfl, rfl, id⟩
  | account _ ht => exact absurd rfl (Ledger.token?_ne_mint? ht hm)
  | mint _ hm₁ h hstep =>
    rw [hm, Option.some.injEq] at hm₁
    subst hm₁
    exact ⟨_, Ledger.mint?_eq_some.mpr (by simp [h, howner]), hstep⟩
  | createMint _ hblank => simp [Account.Blank, hdata] at hblank
  | createAccount _ hblank => simp [Account.Blank, hdata] at hblank
  | close _ ht => exact absurd rfl (Ledger.token?_ne_mint? ht hm)

theorem KeyStep.foreign {op : TokenOp} {k : Pubkey} (hk : KeyStep L L' signers op k)
    (h : (L k).owner ≠ tokenProgram) : L' k = L k := by
  cases hk with
  | same h' => exact h'
  | account _ ht => exact absurd (Ledger.token?_eq_some.mp ht).1 h
  | mint _ hm => exact absurd (Ledger.mint?_eq_some.mp hm).1 h
  | createMint _ _ howner => exact absurd howner h
  | createAccount _ _ howner => exact absurd howner h
  | close _ ht => exact absurd (Ledger.token?_eq_some.mp ht).1 h

theorem KeyStep.frame {op : TokenOp} {k : Pubkey} (hk : KeyStep L L' signers op k)
    (h : k ∉ op.writes) : L' k = L k := by
  cases hk with
  | same h' => exact h'
  | account hw => exact absurd hw h
  | mint hw => exact absurd hw h
  | createMint hw => exact absurd hw h
  | createAccount hw => exact absurd hw h
  | close hw => exact absurd hw h

/-- A closed account goes back to the System program; the Token program hands out nothing else. -/
theorem KeyStep.owner {op : TokenOp} {k : Pubkey} (hk : KeyStep L L' signers op k) :
    (L' k).owner = (L k).owner ∨ (L' k).owner = systemProgram := by
  cases hk with
  | same h => exact .inl (by rw [h])
  | account _ _ h => exact .inl (by rw [h])
  | mint _ _ h => exact .inl (by rw [h])
  | createMint _ _ _ h => exact .inl (by rw [h])
  | createAccount _ _ _ h => exact .inl (by rw [h])
  | close _ _ _ _ h => exact .inr (by rw [h])

end ProgrammableSolana.Solana
