import ProgrammableSolana.Solana.Confinement

/-! When a Token transfer goes through, and what it leaves. -/
namespace ProgrammableSolana.Solana

open ProgrammableSolana.Lib

section

variable {σ : Type} {L : Ledger σ} {signers : List Pubkey} {x x₁ y : TokenAccount}
  {source mint destination authority : Pubkey} {amount : UInt64} {m : Mint}

/-- The owner pays from an account whose delegate is someone else or nobody. -/
theorem authorizeDebit_owner (hd : x.delegate ≠ some authority) (ho : x.owner = authority)
    (hs : authority ∈ signers) : authorizeDebit signers x authority amount = .ok x := by
  unfold authorizeDebit validateOwner
  simp [hd, ho, hs, require, bind, Except.bind, pure, Except.pure]

/-- The delegate pays as long as its allowance lasts. -/
theorem authorizeDebit_delegate (hd : x.delegate = some authority) (hs : authority ∈ signers)
    (ha : amount ≤ x.delegatedAmount) : authorizeDebit signers x authority amount = .ok { x with
      delegatedAmount := x.delegatedAmount - amount
      delegate := if x.delegatedAmount - amount = 0 then none else some authority } := by
  unfold authorizeDebit
  simp [hd, hs, ha, require, bind, Except.bind, pure, Except.pure]

theorem authorizeDebit_kept (h : authorizeDebit signers x authority amount = .ok x₁) :
    x₁.mint = x.mint ∧ x₁.state = x.state := by
  rcases authorizeDebit_ok h with ⟨-, -, -, rfl⟩ | ⟨-, -, -, rfl⟩
  · exact ⟨rfl, rfl⟩
  · exact ⟨rfl, rfl⟩

/-- The ledger after a transfer between the accounts `x` and `y`. -/
def transferred (L : Ledger σ) (source destination : Pubkey) (x x₁ y : TokenAccount)
    (amount : UInt64) : Ledger σ :=
  (L.setToken source { x₁ with amount := x.amount - amount }).setToken destination
    { y with amount := y.amount + amount }

theorem transferChecked_succeeds (hne : source ≠ destination) (hx : L.token? source = some x)
    (hy : L.token? destination = some y) (hm : L.mint? mint = some m) (hxs : x.state ≠ .frozen)
    (hys : y.state ≠ .frozen) (hheld : amount ≤ x.amount) (hxm : x.mint = mint)
    (hym : y.mint = mint) (hpay : authorizeDebit signers x authority amount = .ok x₁)
    (hfit : y.amount.toNat + amount.toNat < 2 ^ 64) :
    (TokenOp.transferChecked source mint destination authority amount m.decimals).apply L signers =
      .ok (transferred L source destination x x₁ y amount) := by
  have hcredit : checkedAdd y.amount amount = some (y.amount + amount) := if_pos hfit
  simp [TokenOp.apply, processTransfer, loadToken, loadMint, requireChecked, transferred, hx, hy,
    hm, hxs, hys, hheld, hxm, hym, hpay, hne, hcredit, require, okOr, bind, Except.bind, pure,
    Except.pure]

theorem transferred_source (hne : source ≠ destination) (hx : L.token? source = some x) :
    (transferred L source destination x x₁ y amount).token? source =
      some { x₁ with amount := x.amount - amount } := by
  unfold transferred
  rw [Ledger.token?_setToken_of_ne hne, Ledger.token?_setToken_self (Ledger.token?_eq_some.mp hx).1]

theorem transferred_destination (hy : L.token? destination = some y) :
    (transferred L source destination x x₁ y amount).token? destination =
      some { y with amount := y.amount + amount } := by
  unfold transferred
  refine Ledger.token?_setToken_self ?_
  rw [Ledger.setToken, Ledger.setData_owner]
  exact (Ledger.token?_eq_some.mp hy).1

theorem transferred_frame {k : Pubkey} (hs : k ≠ source) (hd : k ≠ destination) :
    transferred L source destination x x₁ y amount k = L k := by
  simp [transferred, setToken_eq, hs, hd]

private theorem tokenInvoke_succeeds {ev : Type} {w : World σ ev} {caller : List AccountInfo}
    {pdaSigners : List Pubkey} {op : TokenOp} {L' : Ledger σ}
    (hw : ∀ k ∈ op.writes, ∃ info ∈ caller, info.key = k ∧ info.isWritable = true)
    (hs : (∃ info ∈ caller, info.key = authority ∧ info.isSigner = true) ∨ authority ∈ pdaSigners)
    (hop : op.apply w.ledger [authority] = .ok L') :
    (tokenInvoke caller pdaSigners op (some authority)).run w = (.ok (), { w with
      ledger := L', returnData := none, log := w.log ++ [.token op [authority] w.ledger] }) := by
  simp only [tokenInvoke, Exec.bind_ok_iff, Exec.ensure_ok_iff, Exec.get_ok_iff,
    Exec.ofExcept_ok_iff, mapError_ok_iff, Exec.modify_ok_iff]
  refine ⟨(), w, ⟨hw, rfl⟩, (), w, ⟨?_, rfl⟩, w, w, ⟨rfl, rfl⟩, L', w, ⟨hop, rfl⟩, rfl⟩
  intro a ha
  rw [Option.mem_some_iff] at ha
  rwa [← ha]

/-- A transfer of the running program goes through under the conditions of the Token program, with
the two accounts writable and the authority's signature at hand. -/
theorem transferInvoke_succeeds {ev : Type} {w : World σ ev} {caller : List AccountInfo}
    {pdaSigners : List Pubkey}
    (hs : ∃ info ∈ caller, info.key = source ∧ info.isWritable = true)
    (hd : ∃ info ∈ caller, info.key = destination ∧ info.isWritable = true)
    (hsigned : (∃ info ∈ caller, info.key = authority ∧ info.isSigner = true) ∨
      authority ∈ pdaSigners)
    (hop : (TokenOp.transferChecked source mint destination authority amount m.decimals).apply
      w.ledger [authority] = .ok (transferred w.ledger source destination x x₁ y amount)) :
    ∃ w', (tokenInvoke caller pdaSigners (.transferChecked source mint destination authority amount
        m.decimals) (some authority)).run w = (.ok (), w') ∧
      w'.ledger = transferred w.ledger source destination x x₁ y amount := by
  refine ⟨_, tokenInvoke_succeeds (fun k hk => ?_) hsigned hop, rfl⟩
  simp only [TokenOp.writes, List.mem_cons, List.not_mem_nil, or_false] at hk
  rcases hk with rfl | rfl
  · exact hs
  · exact hd

end

end ProgrammableSolana.Solana
