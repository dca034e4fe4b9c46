import ProgrammableSolana.Solana.Programs

/-! When a cross-program call goes through, and what of it the callee sees. -/
namespace ProgrammableSolana.Solana

open ProgrammableSolana.Lib

section Presentation

private theorem any_of_agree {metas : List AccountMeta} {m : AccountMeta} (f : AccountMeta → Bool)
    (hm : m ∈ metas) (h : ∀ n ∈ metas, n.pubkey = m.pubkey → n = m) :
    (metas.any fun n => n.pubkey = m.pubkey && f n) = f m := by
  rw [Bool.eq_iff_iff, List.any_eq_true]
  constructor
  · rintro ⟨n, hn, hboth⟩
    rw [Bool.and_eq_true, decide_eq_true_eq] at hboth
    rw [← h n hn hboth.1]
    exact hboth.2
  · intro hf
    exact ⟨m, hm, by simp [hf]⟩

/-- Where every meta agrees with those of its key, the callee sees the metas as they are. -/
theorem presented_of_agree {ix : Instruction}
    (h : ∀ m ∈ ix.accounts, ∀ n ∈ ix.accounts, n.pubkey = m.pubkey → n = m) :
    ix.presented = ix.accounts.map fun m => ⟨m.pubkey, m.isSigner, m.isWritable⟩ := by
  unfold Instruction.presented
  apply List.map_congr_left
  intro m hm
  rw [any_of_agree AccountMeta.isSigner hm (h m hm), any_of_agree AccountMeta.isWritable hm (h m hm)]

end Presentation

section Calls

variable [Crypto] {σ ev : Type} {programId : Pubkey} {w w₁ : World σ ev}

theorem performAll_write {priv : Privileges} {program key : Pubkey} {executable : Bool}
    {bytes : List UInt8} (hcall : priv.callable program = true) (hne : program ≠ tokenProgram)
    (hw : priv.writable key = true) (howner : (w.ledger key).owner = program) :
    (performAll priv [(.write program key program executable bytes : Action programId)]).run w =
      (.ok (), { w with
        ledger := Function.update w.ledger key ⟨program, executable, .raw bytes⟩ }) := by
  have hwrite : ((.write program key program executable bytes : Action programId).perform priv).run
      w = (.ok (), { w with
        ledger := Function.update w.ledger key ⟨program, executable, .raw bytes⟩ }) := by
    unfold Exec.run Action.perform
    exact if_pos ⟨hcall, hne, hw, howner, .inl rfl⟩
  unfold performAll
  rw [Exec.run_bind_of_ok hwrite]
  rfl

/-- A call that asks for what it may and is answered goes through. -/
theorem invokeSigned_succeeds {callee : Callee σ programId} {caller infos : List AccountInfo}
    {ix : Instruction} {pdaSigners : List Pubkey} {response : Response programId}
    (hinfos : ∀ m ∈ ix.accounts, ∃ info ∈ infos, info.key = m.pubkey)
    (hgranted : ∀ m ∈ ix.accounts, m.Granted caller pdaSigners)
    (hprogram : ∃ info ∈ caller, info.key = ix.programId)
    (hexecutable : (w.ledger ix.programId).executable = true) (hne : ix.programId ≠ programId)
    (hresponse : callee ix w.ledger = some response)
    (hperform : (performAll (ix.privileges programId) response.actions).run w = (.ok (), w₁)) :
    (invokeSigned programId callee caller ix infos pdaSigners).run w = (.ok (), { w₁ with
      returnData := response.returned
      log := w₁.log ++ [.call ⟨ix, w.ledger, w₁.ledger, response.returned⟩] }) := by
  simp only [invokeSigned, Exec.bind_ok_iff, Exec.ensure_ok_iff, Exec.ofExcept_ok_iff,
    Exec.get_ok_iff, okOr_ok_iff, Exec.modify_ok_iff]
  exact ⟨(), w, ⟨hinfos, rfl⟩, (), w, ⟨hgranted, rfl⟩, (), w, ⟨hprogram, rfl⟩, w, w, ⟨rfl, rfl⟩,
    (), w, ⟨hexecutable, rfl⟩, (), w, ⟨hne, rfl⟩, response, w, ⟨hresponse, rfl⟩, (), w₁, hperform,
    rfl⟩

theorem invokeSigned_unanswered {callee : Callee σ programId} {caller infos : List AccountInfo}
    {ix : Instruction} {pdaSigners : List Pubkey}
    (hinfos : ∀ m ∈ ix.accounts, ∃ info ∈ infos, info.key = m.pubkey)
    (hgranted : ∀ m ∈ ix.accounts, m.Granted caller pdaSigners)
    (hprogram : ∃ info ∈ caller, info.key = ix.programId)
    (hexecutable : (w.ledger ix.programId).executable = true) (hne : ix.programId ≠ programId)
    (hresponse : callee ix w.ledger = none) :
    (invokeSigned programId callee caller ix infos pdaSigners).run w = (.error .calleeFailed, w) := by
  unfold invokeSigned
  rw [Exec.run_bind_of_ok (Exec.run_ensure hinfos),
    Exec.run_bind_of_ok (Exec.run_ensure hgranted),
    Exec.run_bind_of_ok (Exec.run_ensure hprogram),
    Exec.run_bind_of_ok (Exec.run_get w),
    Exec.run_bind_of_ok (Exec.run_ensure hexecutable),
    Exec.run_bind_of_ok (Exec.run_ensure hne)]
  apply Exec.run_bind_of_error
  rw [Exec.run_ofExcept, hresponse]
  rfl

end Calls

end ProgrammableSolana.Solana
