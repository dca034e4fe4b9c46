import ProgrammableSolana.Solana.Confinement

/-! The same call made from another ledger: a callee that cannot reach the Token program and sees
no more than the accounts passed to it does the same again. -/
namespace ProgrammableSolana.Solana

open ProgrammableSolana.Lib

section

variable [Crypto] {σ ev : Type} {programId : Pubkey}

/-- The program sees the accounts it is passed and nothing else. -/
def ReadsPassed (callee : Callee σ programId) (program : Pubkey) : Prop :=
  ∀ (ix : Instruction) (L L' : Ledger σ), ix.programId = program →
    (∀ m ∈ ix.accounts, L m.pubkey = L' m.pubkey) → callee ix L = callee ix L'

variable {priv : Privileges} {w w' v : World σ ev}

/-- The ledger `v` with what a callee wrote in `w'`. -/
def written (priv : Privileges) (w' v : Ledger σ) : Ledger σ := fun k =>
  if priv.writable k = true then w' k else v k

/-- An action of a callee without the Token program is a rewrite of one writable account. -/
theorem Action.perform_replay {a : Action programId} (hcall : priv.callable tokenProgram = false)
    (h : (a.perform priv).run w = (.ok (), w'))
    (hv : ∀ k, priv.writable k = true → v.ledger k = w.ledger k) :
    ∃ v', (a.perform priv).run v = (.ok (), v') ∧
      v'.ledger = written priv w'.ledger v.ledger ∧ v'.log = v.log := by
  rcases Action.perform_ok h with
    ⟨program, key, newOwner, executable, bytes, rfl, hc, hp, hw, howner, hzero, rfl⟩ |
    ⟨_, _, _, -, hc, -⟩
  · have howner' : (v.ledger key).owner = program := by rw [hv key hw, howner]
    refine ⟨_, if_pos ⟨hc, hp, hw, howner', hzero⟩, ?_, rfl⟩
    funext k
    unfold written
    by_cases hk : k = key
    · simp [hk, hw]
    · by_cases hwk : priv.writable k = true
      · simp [hk, hwk, hv k hwk]
      · simp [hk, hwk]
  · rw [hcall] at hc
    cases hc

private theorem performAll_replay {as : List (Action programId)}
    (hcall : priv.callable tokenProgram = false) (h : (performAll priv as).run w = (.ok (), w'))
    (hv : ∀ k, priv.writable k = true → v.ledger k = w.ledger k) :
    ∃ v', (performAll priv as).run v = (.ok (), v') ∧
      v'.ledger = written priv w'.ledger v.ledger ∧ v'.log = v.log := by
  induction as generalizing w v with
  | nil =>
    obtain ⟨-, rfl⟩ := Exec.pure_ok_iff.mp h
    refine ⟨v, rfl, ?_, rfl⟩
    funext k
    unfold written
    by_cases hk : priv.writable k = true
    · rw [if_pos hk, hv k hk]
    · rw [if_neg hk]
  | cons a as ih =>
    obtain ⟨_, w₁, ha, has⟩ := Exec.bind_ok_iff.mp h
    obtain ⟨v₁, ha', hL, hlog⟩ := Action.perform_replay hcall ha hv
    have hv₁ : ∀ k, priv.writable k = true → v₁.ledger k = w₁.ledger k := by
      intro k hk
      rw [hL, written, if_pos hk]
    obtain ⟨v', has', hL', hlog'⟩ := ih has hv₁
    refine ⟨v', Exec.bind_ok_iff.mpr ⟨(), v₁, ha', has'⟩, ?_, hlog'.trans hlog⟩
    rw [hL', hL]
    funext k
    unfold written
    by_cases hk : priv.writable k = true
    · rw [if_pos hk, if_pos hk]
    · rw [if_neg hk, if_neg hk, if_neg hk]

/-- A call that went through goes through again from a ledger with the same accounts behind its
metas, and writes and returns the same. -/
theorem invokeSigned_replay {callee : Callee σ programId} {caller infos : List AccountInfo}
    {ix : Instruction} {pdaSigners : List Pubkey} {u : Unit}
    (h : (invokeSigned programId callee caller ix infos pdaSigners).run w = (.ok u, w'))
    (hcall : (ix.privileges programId).callable tokenProgram = false)
    (hreads : ReadsPassed callee ix.programId)
    (hcode : (v.ledger ix.programId).executable = (w.ledger ix.programId).executable)
    (hv : ∀ m ∈ ix.accounts, v.ledger m.pubkey = w.ledger m.pubkey) :
    ∃ v', (invokeSigned programId callee caller ix infos pdaSigners).run v = (.ok (), v') ∧
      v'.ledger = written (ix.privileges programId) w'.ledger v.ledger ∧
      v'.returnData = w'.returnData := by
  simp only [invokeSigned, Exec.bind_ok_iff, Exec.ensure_ok_iff, Exec.ofExcept_ok_iff,
    Exec.get_ok_iff, okOr_ok_iff, Exec.modify_ok_iff] at h ⊢
  obtain ⟨_, _, ⟨hinfos, rfl⟩, _, _, ⟨hgranted, rfl⟩, _, _, ⟨hprogram, rfl⟩, _, _, ⟨rfl, rfl⟩, _, _,
    ⟨hexec, rfl⟩, _, _, ⟨hne, rfl⟩, response, _, ⟨hres, rfl⟩, _, w₁, hall, rfl⟩ := h
  have hwritable : ∀ k, (ix.privileges programId).writable k = true →
      v.ledger k = w.ledger k := by
    intro k hk
    simp only [Instruction.privileges, List.any_eq_true, Bool.and_eq_true, decide_eq_true_eq] at hk
    obtain ⟨m, hm, rfl, -⟩ := hk
    exact hv m hm
  obtain ⟨v₁, hall', hL, -⟩ := performAll_replay hcall hall hwritable
  have hres' : callee ix v.ledger = some response := by
    rw [hreads ix v.ledger w.ledger rfl hv]
    exact hres
  refine ⟨_, ⟨(), v, ⟨hinfos, rfl⟩, (), v, ⟨hgranted, rfl⟩, (), v, ⟨hprogram, rfl⟩, v, v, ⟨rfl, rfl⟩,
    (), v, ⟨hcode.trans hexec, rfl⟩, (), v, ⟨hne, rfl⟩, response, v, ⟨hres', rfl⟩, (), v₁, hall', rfl⟩,
    hL, rfl⟩

end

end ProgrammableSolana.Solana
