import ProgrammableSolana.Lib.Conservation
import ProgrammableSolana.Solana.Confinement
import Mathlib.Data.Set.Finite.List

/-! The sum of all token balances of a mint, and what keeps it. -/
namespace ProgrammableSolana.Solana

open ProgrammableSolana.Lib

instance {n : ℕ} : Finite (Bytes n) :=
  have : Finite UInt8 := Finite.of_injective UInt8.toFin fun _ _ => UInt8.toFin_inj.mp
  have := (List.finite_length_eq UInt8 n).to_subtype
  Finite.of_injective (fun b : Bytes n => (⟨b.toList, b.length_eq⟩ : {l : List UInt8 | l.length = n}))
    fun _ _ h => Bytes.ext (congrArg Subtype.val h)

section Totals

variable {σ : Type} {L L' : Ledger σ}

/-- The tokens of `mint` held at an address. -/
def balanceOf (L : Ledger σ) (mint key : Pubkey) : ℕ :=
  match L.token? key with
  | some t => if t.mint = mint then t.amount.toNat else 0
  | none => 0

theorem balanceOf_eq {mint key : Pubkey} {t : TokenAccount} (h : L.token? key = some t) :
    balanceOf L mint key = if t.mint = mint then t.amount.toNat else 0 := by
  simp [balanceOf, h]

/-- The sum of all balances of `mint`. -/
noncomputable def totalBalance (L : Ledger σ) (mint : Pubkey) : ℕ := ∑ᶠ key, balanceOf L mint key

/-- Two accounts of a mint hold no more than there is of it. -/
theorem amounts_le_totalBalance {mint k k' : Pubkey} {t t' : TokenAccount} (hk : L.token? k = some t)
    (hk' : L.token? k' = some t') (hm : t.mint = mint) (hm' : t'.mint = mint) (hne : k ≠ k') :
    t.amount.toNat + t'.amount.toNat ≤ totalBalance L mint := by
  have hle := add_le_finsum (f := balanceOf L mint) hne
  rwa [balanceOf_eq hk, balanceOf_eq hk', if_pos hm, if_pos hm'] at hle

theorem totalBalance_ofList {accounts : List (Pubkey × Account σ)}
    (hnodup : (accounts.map Prod.fst).Nodup) (mint : Pubkey) :
    totalBalance (.ofList accounts) mint =
      ((accounts.map Prod.fst).map (balanceOf (.ofList accounts) mint)).sum := by
  have hsupport : Function.support (balanceOf (.ofList accounts) mint) ⊆
      ((accounts.map Prod.fst).toFinset : Set Pubkey) := by
    intro k hk
    by_contra hmem
    apply hk
    have hlookup : accounts.lookup k = none := by
      rw [List.lookup_eq_none_iff]
      intro p hp
      have hne : k ≠ p.1 := fun heq =>
        hmem (by simpa using ⟨p.2, heq ▸ hp⟩)
      simpa using hne
    unfold balanceOf Ledger.token? Ledger.ofList
    rw [hlookup]
    rfl
  unfold totalBalance
  rw [finsum_eq_sum_of_support_subset _ hsupport, List.sum_toFinset _ hnodup]

theorem totalBalance_congr (h : ∀ k, L'.token? k = L.token? k) (mint : Pubkey) :
    totalBalance L' mint = totalBalance L mint := by
  simp only [totalBalance, balanceOf, h]

/-- A transfer moves tokens of one mint and keeps its total. -/
theorem processTransfer_totalBalance {signers : List Pubkey} {source destination authority : Pubkey}
    {amount : UInt64} {checked : Option (Pubkey × UInt8)}
    (h : processTransfer L signers source destination authority amount checked = .ok L')
    (mint : Pubkey) : totalBalance L' mint = totalBalance L mint := by
  obtain ⟨src, dst, debited, hsrc, hdst, hheld, hmint, hdebit, ⟨-, rfl⟩ | ⟨hne, credited, hc, rfl⟩⟩ :=
    processTransfer_ok h
  · rfl
  · have hos := (Ledger.token?_eq_some.mp hsrc).1
    have hod := (Ledger.token?_eq_some.mp hdst).1
    have hdm : debited.mint = src.mint := by
      rcases authorizeDebit_ok hdebit with ⟨-, -, -, rfl⟩ | ⟨-, -, -, rfl⟩ <;> rfl
    have hs' := Ledger.token?_setToken_self (t := { debited with amount := src.amount - amount }) hos
    rw [← Ledger.token?_setToken_of_ne (t := { dst with amount := credited }) hne] at hs'
    have hd' : ((L.setToken source { debited with amount := src.amount - amount }).setToken destination
        { dst with amount := credited }).token? destination = some { dst with amount := credited } :=
      Ledger.token?_setToken_self (by rw [Ledger.setToken, Ledger.setData_owner, hod])
    have hsub : (src.amount - amount).toNat + amount.toNat = src.amount.toNat := by
      have hle := UInt64.le_iff_toNat_le.mp hheld
      rw [UInt64.toNat_sub_of_le _ _ hheld]
      omega
    refine Moved.finsum_eq (x := source) (y := destination)
      (n := if src.mint = mint then amount.toNat else 0) ⟨hne, ?_, ?_, fun k hks hkd => ?_⟩
    · rw [balanceOf_eq hs', balanceOf_eq hsrc, hdm]
      split <;> simp [hsub]
    · rw [balanceOf_eq hd', balanceOf_eq hdst, ← hmint]
      split <;> simp [hc]
    · simp only [balanceOf, Ledger.token?_setToken_of_ne hkd, Ledger.token?_setToken_of_ne hks]

end Totals

theorem performAll_token? [Crypto] {σ ev : Type} {programId : Pubkey} {priv : Privileges}
    {w w' : World σ ev} {as : List (Action programId)} (hcall : priv.callable tokenProgram = false)
    (h : (performAll priv as).run w = (.ok (), w')) (k : Pubkey) :
    w'.ledger.token? k = w.ledger.token? k := by
  refine performAll_rel (R := fun w w' => w'.ledger.token? k = w.ledger.token? k) (fun _ => rfl)
    (fun h h' => h'.trans h) (fun a _ w w' ha => ?_) h
  rcases Action.perform_ok ha with
    ⟨program, key, newOwner, executable, bytes, -, -, hprogram, -, howner, -, rfl⟩ |
    ⟨_, _, _, -, hc, -⟩
  · by_cases hk : k = key
    · subst hk
      simp [Ledger.token?, howner, hprogram]
    · exact Ledger.token?_congr (Function.update_of_ne hk _ _)
  · rw [hcall] at hc
    cases hc

end ProgrammableSolana.Solana
