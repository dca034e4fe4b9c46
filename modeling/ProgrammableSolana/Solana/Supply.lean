import ProgrammableSolana.Solana.Balances

/-! The supply of a mint is the sum of its balances: every Token instruction keeps it so, and
nothing else can touch it. The native mint is left out, as its tokens are lamports. -/
namespace ProgrammableSolana.Solana

open ProgrammableSolana.Lib

section

variable {σ : Type} {L L' : Ledger σ} {a k mint : Pubkey} {t t' : TokenAccount} {m m' : Mint}

namespace Ledger

theorem mint?_of_token? (h : L.token? k = some t) : L.mint? k = none := by
  have hdata := (token?_eq_some.mp h).2
  unfold mint?
  rw [hdata]
  split <;> rfl

private theorem token?_of_mint? (h : L.mint? k = some m) : L.token? k = none := by
  have hdata := (mint?_eq_some.mp h).2
  unfold token?
  rw [hdata]
  split <;> rfl

theorem neither_of_raw {bytes : List UInt8} (h : (L k).data = .raw bytes) :
    L.token? k = none ∧ L.mint? k = none := by
  unfold token? mint?
  rw [h]
  constructor <;> split <;> rfl

theorem neither_of_owner (h : (L k).owner ≠ tokenProgram) :
    L.token? k = none ∧ L.mint? k = none := by
  unfold token? mint?
  exact ⟨if_neg h, if_neg h⟩

private theorem mint?_setToken (h : L.mint? a = none) (t : TokenAccount) (k : Pubkey) :
    (L.setToken a t).mint? k = L.mint? k := by
  by_cases hk : k = a
  · subst hk
    rw [h]
    simp [mint?, setToken]
  · exact mint?_congr (setData_of_ne hk _)

private theorem token?_setMint (h : L.token? a = none) (m : Mint) (k : Pubkey) :
    (L.setMint a m).token? k = L.token? k := by
  by_cases hk : k = a
  · subst hk
    rw [h]
    simp [token?, setMint]
  · exact token?_congr (setData_of_ne hk _)

end Ledger

theorem Account.Blank.raw {x : Account σ} (h : x.Blank) : ∃ bytes, x.data = .raw bytes := by
  unfold Blank at h
  split at h
  · exact ⟨_, ‹_›⟩
  · exact h.elim

/-- The tokens a mint says it has issued. -/
def supplyOf (L : Ledger σ) (mint : Pubkey) : ℕ :=
  match L.mint? mint with
  | some m => m.supply.toNat
  | none => 0

private theorem supplyOf_eq (h : L.mint? mint = some m) : supplyOf L mint = m.supply.toNat := by
  simp [supplyOf, h]

private theorem supplyOf_congr (h : L'.mint? mint = L.mint? mint) :
    supplyOf L' mint = supplyOf L mint := by
  simp [supplyOf, h]

private theorem supplyOf_lt (L : Ledger σ) (mint : Pubkey) : supplyOf L mint < 2 ^ 64 := by
  unfold supplyOf
  split
  · exact UInt64.toNat_lt _
  · decide

/-- Every mint but the native one accounts for all its tokens. -/
structure Supplied (L : Ledger σ) : Prop where
  native : ∀ k t, L.token? k = some t → t.isNative ≠ none → t.mint = nativeMint
  supply : ∀ mint, mint ≠ nativeMint → totalBalance L mint = supplyOf L mint

theorem Supplied.totalBalance_lt (h : Supplied L) (hmint : mint ≠ nativeMint) :
    totalBalance L mint < 2 ^ 64 := by
  rw [h.supply mint hmint]
  exact supplyOf_lt L mint

private theorem totalBalance_change (h : ∀ k, k ≠ a → L'.token? k = L.token? k) (mint : Pubkey) :
    totalBalance L' mint + balanceOf L mint a = totalBalance L mint + balanceOf L' mint a :=
  finsum_change fun k hk => by simp only [balanceOf, h k hk]

namespace Supplied

/-- A ledger given by a list, checked mint by mint. -/
theorem ofList {accounts : List (Pubkey × Account σ)} (hnodup : (accounts.map Prod.fst).Nodup)
    (htoken : ∀ k ∈ accounts.map Prod.fst, ∀ t ∈ (Ledger.ofList accounts).token? k,
      t.isNative = none ∧ t.mint ∈ accounts.map Prod.fst)
    (hsupply : ∀ mint ∈ accounts.map Prod.fst,
      ((accounts.map Prod.fst).map (balanceOf (.ofList accounts) mint)).sum =
        supplyOf (.ofList accounts) mint) : Supplied (.ofList accounts) := by
  have hempty : ∀ k, k ∉ accounts.map Prod.fst →
      (Ledger.ofList accounts).token? k = none ∧ (Ledger.ofList accounts).mint? k = none := by
    intro k hk
    have hlookup : accounts.lookup k = none := by
      rw [List.lookup_eq_none_iff]
      intro p hp
      have hne : k ≠ p.1 := fun heq => hk (heq ▸ List.mem_map_of_mem hp)
      simpa using hne
    have hraw : (Ledger.ofList accounts k).data = .raw [] := by
      unfold Ledger.ofList
      rw [hlookup]
      rfl
    exact Ledger.neither_of_raw hraw
  have hmem : ∀ k t, (Ledger.ofList accounts).token? k = some t → k ∈ accounts.map Prod.fst := by
    intro k t ht
    by_contra hk
    rw [(hempty k hk).1] at ht
    cases ht
  refine ⟨fun k t ht hn => absurd (htoken k (hmem k t ht) t ht).1 hn, fun mint _ => ?_⟩
  rw [totalBalance_ofList hnodup]
  by_cases hk : mint ∈ accounts.map Prod.fst
  · exact hsupply mint hk
  · rw [supplyOf, (hempty mint hk).2]
    refine List.sum_eq_zero fun n hn => ?_
    obtain ⟨k, hk', rfl⟩ := List.mem_map.mp hn
    unfold balanceOf
    cases ht : (Ledger.ofList accounts).token? k with
    | none => rfl
    | some t =>
      refine if_neg ?_
      rintro rfl
      exact hk (htoken k hk' t ht).2

theorem congr (h : Supplied L) (htoken : ∀ k, L'.token? k = L.token? k)
    (hmint : ∀ k, L'.mint? k = L.mint? k) : Supplied L' where
  native k t ht := h.native k t ((htoken k).symm.trans ht)
  supply mint hne := by
    rw [totalBalance_congr htoken, supplyOf_congr (hmint mint), h.supply mint hne]

/-- A change that moves no balance and no supply. -/
theorem of_balances (h : Supplied L)
    (hnative : ∀ k t, L'.token? k = some t → t.isNative ≠ none → t.mint = nativeMint)
    (hbalance : ∀ mint, mint ≠ nativeMint → ∀ k, balanceOf L' mint k = balanceOf L mint k)
    (hsupply : ∀ k, L'.mint? k = L.mint? k) : Supplied L' where
  native := hnative
  supply mint hne := by
    unfold totalBalance
    rw [funext (hbalance mint hne), supplyOf_congr (hsupply mint)]
    exact h.supply mint hne

theorem change (h : Supplied L) (htoken : ∀ k, k ≠ a → L'.token? k = L.token? k)
    (hnative : ∀ t', L'.token? a = some t' → t'.isNative ≠ none → t'.mint = nativeMint)
    (hsupply : ∀ mint, mint ≠ nativeMint →
      supplyOf L' mint + balanceOf L mint a = supplyOf L mint + balanceOf L' mint a) :
    Supplied L' where
  native k t ht hn := by
    by_cases hk : k = a
    · exact hnative t (hk ▸ ht) hn
    · exact h.native k t ((htoken k hk).symm.trans ht) hn
  supply mint hne := by
    have htotal := totalBalance_change htoken mint
    have hbefore := h.supply mint hne
    have hafter := hsupply mint hne
    omega

/-- A token account rewritten with the same mint, and with the same amount unless it is native. -/
theorem setToken (h : Supplied L) (ht : L.token? a = some t) (hmint : t'.mint = t.mint)
    (hnative : t'.isNative = t.isNative)
    (hamount : t.mint ≠ nativeMint → t'.amount = t.amount) : Supplied (L.setToken a t') := by
  have hset : (L.setToken a t').token? a = some t' :=
    Ledger.token?_setToken_self (Ledger.token?_eq_some.mp ht).1
  refine h.change (a := a) (fun k hk => Ledger.token?_setToken_of_ne hk) ?_ ?_
  · intro u hu hn
    rw [hset, Option.some.injEq] at hu
    rw [← hu, hmint]
    exact h.native a t ht (by rwa [← hnative, hu])
  · intro mint hne
    rw [supplyOf_congr (Ledger.mint?_setToken (Ledger.mint?_of_token? ht) t' mint),
      balanceOf_eq ht, balanceOf_eq hset, hmint]
    by_cases hm : t.mint = mint
    · rw [if_pos hm, if_pos hm, hamount (hm ▸ hne)]
    · rw [if_neg hm, if_neg hm]

theorem setMint (h : Supplied L) (hm : L.mint? a = some m) (hsupply : m'.supply = m.supply) :
    Supplied (L.setMint a m') := by
  have htoken := Ledger.token?_setMint (Ledger.token?_of_mint? hm) m'
  refine ⟨fun k t ht => h.native k t ((htoken k).symm.trans ht), fun mint hne => ?_⟩
  rw [totalBalance_congr htoken, h.supply mint hne]
  by_cases hk : mint = a
  · subst hk
    rw [supplyOf_eq hm, supplyOf_eq (Ledger.mint?_setMint_self (Ledger.mint?_eq_some.mp hm).1),
      hsupply]
  · exact (supplyOf_congr (Ledger.mint?_setMint_of_ne hk)).symm

/-- An account and the supply of its mint change by the same amount. -/
theorem resupply (h : Supplied L) (ht : L.token? a = some t) (hm : L.mint? t.mint = some m)
    (hmint : t'.mint = t.mint) (hnative : t'.isNative = t.isNative)
    (hsum : m'.supply.toNat + t.amount.toNat = m.supply.toNat + t'.amount.toNat) :
    Supplied ((L.setToken a t').setMint t.mint m') := by
  have hmint' : (L.setToken a t').mint? t.mint = some m :=
    (Ledger.mint?_setToken (Ledger.mint?_of_token? ht) t' _).trans hm
  have htoken := Ledger.token?_setMint (Ledger.token?_of_mint? hmint') m'
  have hset : ((L.setToken a t').setMint t.mint m').token? a = some t' :=
    (htoken a).trans (Ledger.token?_setToken_self (Ledger.token?_eq_some.mp ht).1)
  refine h.change (a := a)
    (fun k hk => (htoken k).trans (Ledger.token?_setToken_of_ne hk)) ?_ ?_
  · intro u hu hn
    rw [hset, Option.some.injEq] at hu
    rw [← hu, hmint]
    exact h.native a t ht (by rwa [← hnative, hu])
  · intro mint hne
    rw [balanceOf_eq ht, balanceOf_eq hset, hmint]
    by_cases hk : mint = t.mint
    · subst hk
      rw [supplyOf_eq hm, supplyOf_eq (Ledger.mint?_setMint_self (Ledger.mint?_eq_some.mp hmint').1),
        if_pos rfl, if_pos rfl, hsum]
    · rw [if_neg (Ne.symm hk), if_neg (Ne.symm hk),
        supplyOf_congr ((Ledger.mint?_setMint_of_ne hk).trans
          (Ledger.mint?_setToken (Ledger.mint?_of_token? ht) t' mint))]

/-- A blank account becomes a token account without tokens, or a native one. -/
theorem opened (h : Supplied L) (hblank : (L a).Blank) (howner : (L a).owner = tokenProgram)
    (hnative : t'.isNative ≠ none → t'.mint = nativeMint)
    (hamount : t'.mint ≠ nativeMint → t'.amount = 0) : Supplied (L.setToken a t') := by
  obtain ⟨bytes, hraw⟩ := hblank.raw
  obtain ⟨htoken, hmint⟩ := Ledger.neither_of_raw hraw
  have hset : (L.setToken a t').token? a = some t' := Ledger.token?_setToken_self howner
  refine h.change (a := a) (fun k hk => Ledger.token?_setToken_of_ne hk) ?_ ?_
  · intro u hu hn
    rw [hset, Option.some.injEq] at hu
    subst hu
    exact hnative hn
  · intro mint hne
    rw [supplyOf_congr (Ledger.mint?_setToken hmint t' mint), balanceOf_eq hset, balanceOf, htoken]
    by_cases hm : t'.mint = mint
    · rw [if_pos hm, hamount (hm ▸ hne)]
      rfl
    · rw [if_neg hm]

/-- A transfer, between whatever accounts. -/
theorem transfer (h : Supplied L) {signers : List Pubkey} {source destination authority : Pubkey}
    {amount : UInt64} {checked : Option (Pubkey × UInt8)}
    (hop : processTransfer L signers source destination authority amount checked = .ok L') :
    Supplied L' := by
  have htotal := processTransfer_totalBalance hop
  obtain ⟨src, dst, debited, hsrc, hdst, -, -, hdebit, ⟨-, rfl⟩ | ⟨hne, credited, -, rfl⟩⟩ :=
    processTransfer_ok hop
  · exact h
  · have hkept : debited.mint = src.mint ∧ debited.isNative = src.isNative := by
      rcases authorizeDebit_ok hdebit with ⟨-, -, -, rfl⟩ | ⟨-, -, -, rfl⟩ <;> exact ⟨rfl, rfl⟩
    have hdst' : (L.setToken source { debited with amount := src.amount - amount }).token?
        destination = some dst := (Ledger.token?_setToken_of_ne (Ne.symm hne)).trans hdst
    refine ⟨fun k t ht hn => ?_, fun mint hm => ?_⟩
    · by_cases hkd : k = destination
      · subst hkd
        rw [Ledger.token?_setToken_self (Ledger.token?_eq_some.mp hdst').1,
          Option.some.injEq] at ht
        subst ht
        exact h.native k dst hdst hn
      · rw [Ledger.token?_setToken_of_ne hkd] at ht
        by_cases hks : k = source
        · subst hks
          rw [Ledger.token?_setToken_self (Ledger.token?_eq_some.mp hsrc).1,
            Option.some.injEq] at ht
          subst ht
          rw [hkept.1]
          exact h.native k src hsrc (hkept.2 ▸ hn)
        · rw [Ledger.token?_setToken_of_ne hks] at ht
          exact h.native k t ht hn
    · rw [htotal mint, h.supply mint hm]
      refine supplyOf_congr ?_ |>.symm
      rw [Ledger.mint?_setToken (Ledger.mint?_of_token? hdst'),
        Ledger.mint?_setToken (Ledger.mint?_of_token? hsrc)]

/-- Every Token instruction keeps the supplies right. -/
theorem apply (h : Supplied L) {op : TokenOp} {signers : List Pubkey}
    (hop : op.apply L signers = .ok L') : Supplied L' := by
  cases op with
  | initializeMint mint decimals mintAuthority freezeAuthority =>
    simp only [TokenOp.apply, processInitializeMint, except_bind_ok_iff, require_ok_iff,
      except_pure_ok_iff] at hop
    obtain ⟨_, ⟨howner, hblank⟩, rfl⟩ := hop
    obtain ⟨bytes, hraw⟩ := hblank.raw
    obtain ⟨htoken, hmint⟩ := Ledger.neither_of_raw hraw
    have htokens := fun m => Ledger.token?_setMint htoken m
    refine ⟨fun k t ht => h.native k t ((htokens _ k).symm.trans ht), fun μ hne => ?_⟩
    rw [totalBalance_congr (htokens _), h.supply μ hne]
    by_cases hk : μ = mint
    · subst hk
      rw [supplyOf_eq (Ledger.mint?_setMint_self howner), supplyOf, hmint]
      rfl
    · exact (supplyOf_congr (Ledger.mint?_setMint_of_ne hk)).symm
  | initializeAccount account mint owner nativeBalance rentExemptReserve =>
    simp only [TokenOp.apply, processInitializeAccount, except_bind_ok_iff, require_ok_iff,
      except_pure_ok_iff] at hop
    obtain ⟨_, ⟨howner, hblank⟩, _, -, rfl⟩ := hop
    refine h.opened hblank howner ?_ ?_
    · intro hn
      by_contra hm
      exact hn (if_neg hm)
    · exact fun hm => if_neg hm
  | transfer source destination authority amount => exact h.transfer hop
  | transferChecked source mint destination authority amount decimals => exact h.transfer hop
  | approve source delegate owner amount =>
    simp only [TokenOp.apply, processApprove, except_bind_ok_iff, loadToken_ok_iff, require_ok_iff,
      validateOwner_ok_iff, except_pure_ok_iff] at hop
    obtain ⟨src, hsrc, _, -, _, -, _, -, rfl⟩ := hop
    exact h.setToken hsrc rfl rfl fun _ => rfl
  | approveChecked source mint delegate owner amount decimals =>
    simp only [TokenOp.apply, processApprove, except_bind_ok_iff, loadToken_ok_iff, require_ok_iff,
      validateOwner_ok_iff, except_pure_ok_iff] at hop
    obtain ⟨src, hsrc, _, -, _, -, _, -, rfl⟩ := hop
    exact h.setToken hsrc rfl rfl fun _ => rfl
  | revoke source owner =>
    simp only [TokenOp.apply, processRevoke, except_bind_ok_iff, loadToken_ok_iff, require_ok_iff,
      validateOwner_ok_iff, except_pure_ok_iff] at hop
    obtain ⟨src, hsrc, _, -, _, -, rfl⟩ := hop
    exact h.setToken hsrc rfl rfl fun _ => rfl
  | setAccountOwner account newOwner authority =>
    simp only [TokenOp.apply, processSetAccountOwner, except_bind_ok_iff, loadToken_ok_iff,
      require_ok_iff, validateOwner_ok_iff, except_pure_ok_iff] at hop
    obtain ⟨t, ht, _, -, _, -, rfl⟩ := hop
    exact h.setToken ht rfl rfl fun _ => rfl
  | setCloseAuthority account newAuthority authority =>
    simp only [TokenOp.apply, processSetCloseAuthority, except_bind_ok_iff, loadToken_ok_iff,
      require_ok_iff, validateOwner_ok_iff, except_pure_ok_iff] at hop
    obtain ⟨t, ht, _, -, _, -, rfl⟩ := hop
    exact h.setToken ht rfl rfl fun _ => rfl
  | setMintAuthority mint newAuthority authority =>
    simp only [TokenOp.apply, processSetMintAuthority, except_bind_ok_iff, loadMint_ok_iff,
      okOr_ok_iff, validateOwner_ok_iff, except_pure_ok_iff] at hop
    obtain ⟨m, hm, current, -, _, -, rfl⟩ := hop
    exact h.setMint hm rfl
  | setFreezeAuthority mint newAuthority authority =>
    simp only [TokenOp.apply, processSetFreezeAuthority, except_bind_ok_iff, loadMint_ok_iff,
      okOr_ok_iff, validateOwner_ok_iff, except_pure_ok_iff] at hop
    obtain ⟨m, hm, current, -, _, -, rfl⟩ := hop
    exact h.setMint hm rfl
  | mintTo mint account authority amount =>
    simp only [TokenOp.apply, processMintTo, except_bind_ok_iff, loadToken_ok_iff, loadMint_ok_iff,
      require_ok_iff, okOr_ok_iff, validateOwner_ok_iff, checkedAdd_eq_some,
      except_pure_ok_iff] at hop
    obtain ⟨t, ht, _, -, _, -, _, rfl, m, hm, _, -, _, -, credited, hc, supply, hs, rfl⟩ := hop
    refine h.resupply ht hm rfl rfl ?_
    simp only [hc, hs]
    omega
  | burn account mint authority amount =>
    simp only [TokenOp.apply, processBurn, except_bind_ok_iff, loadToken_ok_iff, loadMint_ok_iff,
      require_ok_iff, okOr_ok_iff, checkedSub_eq_some, except_pure_ok_iff] at hop
    obtain ⟨t, ht, _, -, _, -, _, hheld, _, rfl, m, hm, debited, hdebit, supply, hs, rfl⟩ := hop
    have hkept : debited.mint = t.mint ∧ debited.isNative = t.isNative := by
      rcases authorizeDebit_ok hdebit with ⟨-, -, -, rfl⟩ | ⟨-, -, -, rfl⟩ <;> exact ⟨rfl, rfl⟩
    have hle := UInt64.le_iff_toNat_le.mp hheld
    refine h.resupply ht hm hkept.1 hkept.2 ?_
    simp only [hs, UInt64.toNat_sub_of_le _ _ hheld]
    omega
  | closeAccount account destination authority =>
    simp only [TokenOp.apply, processCloseAccount, except_bind_ok_iff, loadToken_ok_iff,
      require_ok_iff, validateOwner_ok_iff, except_pure_ok_iff] at hop
    obtain ⟨_, -, t, ht, _, hempty, _, -, rfl⟩ := hop
    have hraw : (L.assign account systemProgram (.raw []) account).data = .raw [] := by simp
    obtain ⟨htoken, hmint⟩ := Ledger.neither_of_raw hraw
    refine h.change (a := account)
      (fun k hk => Ledger.token?_congr (Ledger.assign_of_ne hk _ _)) ?_ ?_
    · intro t' ht'
      rw [htoken] at ht'
      cases ht'
    · intro μ hne
      have hsupply : supplyOf (L.assign account systemProgram (.raw [])) μ = supplyOf L μ := by
        refine supplyOf_congr ?_
        by_cases hk : μ = account
        · subst hk
          rw [hmint, Ledger.mint?_of_token? ht]
        · exact Ledger.mint?_congr (Ledger.assign_of_ne hk _ _)
      rw [hsupply, balanceOf_eq ht, balanceOf, htoken]
      by_cases hm : t.mint = μ
      · rcases hempty with hn | hzero
        · exact absurd (hm ▸ h.native account t ht (by simpa [Option.isSome_iff_ne_none] using hn)) hne
        · rw [if_pos hm, hzero]
          rfl
      · rw [if_neg hm]
  | freezeAccount account mint authority =>
    simp only [TokenOp.apply, processToggleFreezeAccount, except_bind_ok_iff, loadToken_ok_iff,
      loadMint_ok_iff, require_ok_iff, okOr_ok_iff, validateOwner_ok_iff,
      except_pure_ok_iff] at hop
    obtain ⟨t, ht, _, -, _, -, _, -, m, hm, current, -, _, -, rfl⟩ := hop
    exact h.setToken ht rfl rfl fun _ => rfl
  | thawAccount account mint authority =>
    simp only [TokenOp.apply, processToggleFreezeAccount, except_bind_ok_iff, loadToken_ok_iff,
      loadMint_ok_iff, require_ok_iff, okOr_ok_iff, validateOwner_ok_iff,
      except_pure_ok_iff] at hop
    obtain ⟨t, ht, _, -, _, -, _, -, m, hm, current, -, _, -, rfl⟩ := hop
    exact h.setToken ht rfl rfl fun _ => rfl
  | syncNative account nativeBalance =>
    simp only [TokenOp.apply, processSyncNative, except_bind_ok_iff, loadToken_ok_iff,
      require_ok_iff, except_pure_ok_iff] at hop
    obtain ⟨t, ht, _, hn, _, -, rfl⟩ := hop
    refine h.setToken ht rfl rfl fun hne => ?_
    exact absurd (h.native account t ht (by simpa [Option.isSome_iff_ne_none] using hn)) hne

/-- A state of another program is not the Token program's. -/
theorem setState (h : Supplied L) {s : σ} (howner : (L a).owner ≠ tokenProgram) :
    Supplied (L.setState a s) := by
  refine h.congr (fun k => Ledger.token?_setState howner) fun k => ?_
  by_cases hk : k = a
  · subst hk
    have howner' : (L.setState k s k).owner ≠ tokenProgram := by
      rw [Ledger.setState, Ledger.setData_owner]
      exact howner
    rw [(Ledger.neither_of_owner howner).2, (Ledger.neither_of_owner howner').2]
  · exact Ledger.mint?_congr (Ledger.setData_of_ne hk _)

end Supplied

end

section

variable [Crypto] {σ ev : Type} {programId : Pubkey} {priv : Privileges} {w w' : World σ ev}

theorem Action.perform_supplied {a : Action programId} (h : Supplied w.ledger)
    (ha : (a.perform priv).run w = (.ok (), w')) : Supplied w'.ledger := by
  rcases Action.perform_ok ha with
    ⟨program, key, newOwner, executable, bytes, -, -, hp, -, howner, -, rfl⟩ |
    ⟨op, signers, ledger, -, -, -, hop, rfl⟩
  · obtain ⟨htoken, hmint⟩ := Ledger.neither_of_owner (L := w.ledger) (by rwa [howner])
    have hraw : (Function.update w.ledger key ⟨newOwner, executable, .raw bytes⟩ key).data =
        .raw bytes := by simp
    obtain ⟨htoken', hmint'⟩ := Ledger.neither_of_raw hraw
    refine h.congr (fun k => ?_) fun k => ?_
    · by_cases hk : k = key
      · subst hk
        exact htoken'.trans htoken.symm
      · exact Ledger.token?_congr (Function.update_of_ne hk _ _)
    · by_cases hk : k = key
      · subst hk
        exact hmint'.trans hmint.symm
      · exact Ledger.mint?_congr (Function.update_of_ne hk _ _)
  · exact h.apply hop

/-- Whatever a call does, the supplies stay right. -/
theorem invokeSigned_supplied {callee : Callee σ programId} {caller infos : List AccountInfo}
    {ix : Instruction} {pdaSigners : List Pubkey} {u : Unit} (h : Supplied w.ledger)
    (hcall : (invokeSigned programId callee caller ix infos pdaSigners).run w = (.ok u, w')) :
    Supplied w'.ledger := by
  obtain ⟨response, w₁, -, hall, -, -, hledger, -⟩ := invokeSigned_ok hcall
  rw [hledger]
  exact performAll_rel (R := fun w w' => Supplied w.ledger → Supplied w'.ledger) (fun _ => id)
    (fun hab hbc ha => hbc (hab ha)) (fun _ _ _ _ ha h => Action.perform_supplied h ha) hall h

end

theorem tokenInvoke_supplied {σ ev : Type} {caller : List AccountInfo} {pdaSigners : List Pubkey}
    {op : TokenOp} {authority : Option Pubkey} {w w' : World σ ev} {u : Unit}
    (h : Supplied w.ledger)
    (hop : (tokenInvoke caller pdaSigners op authority).run w = (.ok u, w')) :
    Supplied w'.ledger :=
  h.apply (tokenInvoke_ok hop).2.1

end ProgrammableSolana.Solana
