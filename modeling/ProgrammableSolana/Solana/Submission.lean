import ProgrammableSolana.Solana.Programs

/-! A program as the runtime runs it, submitted by a transaction or invoked by another program:
either way it is presented, for each key, the union of the privileges the metas of the key grant. -/
namespace ProgrammableSolana.Solana

open ProgrammableSolana.Lib

/-- What a program does at a stack height with an account list and instruction data. -/
abbrev Program (σ ev ε : Type) : Type :=
  ℕ → List AccountInfo → List UInt8 → Exec (World σ ev) ε Unit

/-- How a call of another program ends when it fails: in the runtime or in the program. -/
inductive CallError (ε : Type) where
  | runtime (e : RuntimeError)
  | callee (e : ε)
  deriving DecidableEq, Repr

section

variable {σ ev ε : Type}

/-- The program on the accounts an instruction presents. Return data starts out empty. -/
def Program.enter (program : Program σ ev ε) (stackHeight : ℕ) (ix : Instruction) :
    Exec (World σ ev) ε Unit := do
  .modify fun w => { w with returnData := none }
  program stackHeight ix.presented ix.data

/-- The instruction as one of a transaction, whose instructions run at stack height one. -/
def Program.submit (program : Program σ ev ε) (ix : Instruction) : Exec (World σ ev) ε Unit :=
  program.enter 1 ix

/-- `invoke`, by the innermost of the programs in `stack`: `caller` lists its accounts and `infos`
those passed along. -/
def Program.invoke (program : Program σ ev ε) (stack : List Pubkey) (caller : List AccountInfo)
    (ix : Instruction) (infos : List AccountInfo) : Exec (World σ ev) (CallError ε) Unit := do
  .ensure (∀ m ∈ ix.accounts, ∃ info ∈ infos, info.key = m.pubkey) (.runtime .missingAccount)
  .ensure (∀ m ∈ ix.accounts, m.Granted caller []) (.runtime .privilegeEscalation)
  .ensure (∃ info ∈ caller, info.key = ix.programId) (.runtime .missingAccount)
  let w ← .get
  .ensure ((w.ledger ix.programId).executable = true) (.runtime .unsupportedProgramId)
  .ensure (ix.programId ∉ stack) (.runtime .reentrancyNotAllowed)
  (program.enter (stack.length + 1) ix).mapError .callee

/-- A call that the runtime lets through is a run of the program one level deeper. -/
theorem Program.invoke_run {program : Program σ ev ε} {stack : List Pubkey}
    {caller infos : List AccountInfo} {ix : Instruction} {w : World σ ev}
    (hinfos : ∀ m ∈ ix.accounts, ∃ info ∈ infos, info.key = m.pubkey)
    (hgranted : ∀ m ∈ ix.accounts, m.Granted caller [])
    (hprogram : ∃ info ∈ caller, info.key = ix.programId)
    (hcode : (w.ledger ix.programId).executable = true) (hstack : ix.programId ∉ stack) :
    (program.invoke stack caller ix infos).run w =
      ((program.enter (stack.length + 1) ix).mapError .callee).run w := by
  unfold Program.invoke
  rw [Exec.run_bind_of_ok (Exec.run_ensure hinfos), Exec.run_bind_of_ok (Exec.run_ensure hgranted),
    Exec.run_bind_of_ok (Exec.run_ensure hprogram), Exec.run_bind_of_ok (Exec.run_get w),
    Exec.run_bind_of_ok (Exec.run_ensure hcode), Exec.run_bind_of_ok (Exec.run_ensure hstack)]

theorem Program.invoke_ends {program : Program σ ev ε} {stack : List Pubkey}
    {caller infos : List AccountInfo} {ix : Instruction} {w : World σ ev}
    {E : CallError ε → World σ ev → Prop} {Q : Unit → World σ ev → Prop}
    (hruntime : ∀ e, E (.runtime e) w)
    (h : ((program.enter (stack.length + 1) ix).mapError .callee).Ends w E Q) :
    (program.invoke stack caller ix infos).Ends w E Q := by
  have hstop : ∀ {p : Prop} [Decidable p] {e : RuntimeError} (err : CallError ε),
      require p (.runtime e) = .error err → E err w := by
    intro p _ e err herr
    rw [← (require_error_iff.mp herr).2]
    exact hruntime e
  unfold Program.invoke
  apply Exec.ends_ofExcept_bind_of hstop
  intro _ _
  apply Exec.ends_ofExcept_bind_of hstop
  intro _ _
  apply Exec.ends_ofExcept_bind_of hstop
  intro _ _
  apply Exec.ends_get_bind
  apply Exec.ends_ofExcept_bind_of hstop
  intro _ _
  apply Exec.ends_ofExcept_bind_of hstop
  intro _ _
  exact h

end

/-- Every position holds the union of what the positions of its key hold. -/
def Unioned (infos : List AccountInfo) : Prop :=
  ∀ info ∈ infos,
    (info.isSigner = infos.any fun other => other.key = info.key && other.isSigner) ∧
      info.isWritable = infos.any fun other => other.key = info.key && other.isWritable

/-- What is presented to a program is unioned already. -/
theorem Instruction.presented_unioned (ix : Instruction) : Unioned ix.presented := by
  have hany : ∀ (key : Pubkey) (flag : AccountMeta → Bool),
      (ix.accounts.any fun m => m.pubkey = key && flag m) =
        ix.accounts.any fun m => m.pubkey = key &&
          ix.accounts.any fun n => n.pubkey = m.pubkey && flag n := by
    intro key flag
    rw [Bool.eq_iff_iff]
    simp only [List.any_eq_true, Bool.and_eq_true, decide_eq_true_eq]
    constructor
    · rintro ⟨m, hm, hkey, hflag⟩
      exact ⟨m, hm, hkey, m, hm, rfl, hflag⟩
    · rintro ⟨m, hm, hkey, n, hn, hkey', hflag⟩
      exact ⟨n, hn, hkey'.trans hkey, hflag⟩
  intro info hinfo
  unfold Instruction.presented at hinfo ⊢
  obtain ⟨m, hm, rfl⟩ := List.mem_map.mp hinfo
  rw [List.any_map, List.any_map]
  exact ⟨hany m.pubkey AccountMeta.isSigner, hany m.pubkey AccountMeta.isWritable⟩

/-- Metas that ask for what unioned positions hold present these positions. -/
theorem presented_of_unioned {infos : List AccountInfo} (h : Unioned infos) (programId : Pubkey)
    (data : List UInt8) :
    (Instruction.mk programId
      (infos.map fun info => ⟨info.key, info.isSigner, info.isWritable⟩) data).presented = infos := by
  have hposition : ∀ info ∈ infos, (AccountInfo.mk info.key
      (infos.any fun other => other.key = info.key && other.isSigner)
      (infos.any fun other => other.key = info.key && other.isWritable)) = info := by
    intro info hinfo
    obtain ⟨hsigner, hwritable⟩ := h info hinfo
    rw [← hsigner, ← hwritable]
  unfold Instruction.presented
  rw [List.map_map]
  calc infos.map _ = infos.map id := by
        apply List.map_congr_left
        intro info hinfo
        show AccountInfo.mk _ _ _ = _
        rw [List.any_map, List.any_map]
        exact hposition info hinfo
    _ = infos := List.map_id infos

end ProgrammableSolana.Solana
