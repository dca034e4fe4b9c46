import ProgrammableSolana.Solana.Confinement

/-! How the runtime presents a cross-program call to the program that is called. -/
namespace ProgrammableSolana.Solana

/-- The accounts as the callee sees them: at each position the flags of all metas of that key
together. -/
def Instruction.presented (ix : Instruction) : List AccountInfo :=
  ix.accounts.map fun m => {
    key := m.pubkey
    isSigner := ix.accounts.any fun n => n.pubkey = m.pubkey && n.isSigner
    isWritable := ix.accounts.any fun n => n.pubkey = m.pubkey && n.isWritable }

@[simp] theorem Instruction.presented_length (ix : Instruction) :
    ix.presented.length = ix.accounts.length := List.length_map _

/-- A callee is presented as signers only what it was signed for. -/
theorem Instruction.mem_signers_of_presented {ix : Instruction} {programId : Pubkey}
    {info : AccountInfo} (h : info ∈ ix.presented) (hs : info.isSigner = true) :
    info.key ∈ (ix.privileges programId).signers := by
  unfold Instruction.presented at h
  obtain ⟨m, hm, rfl⟩ := List.mem_map.mp h
  simp only [List.any_eq_true, Bool.and_eq_true, decide_eq_true_eq] at hs
  obtain ⟨n, hn, hkey, hsigner⟩ := hs
  unfold Instruction.privileges
  exact List.mem_map.mpr ⟨n, List.mem_filter.mpr ⟨hn, hsigner⟩, hkey⟩

end ProgrammableSolana.Solana
