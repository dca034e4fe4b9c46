import ProgrammableSolana.Generated.Progress
import ProgrammableSolana.Generated.Runs
import ProgrammableSolana.Routed.Completeness

/-! What can still fail once an engine is called, in both Cores whose engine names the output. -/
namespace ProgrammableSolana.Cores

open ProgrammableSolana.Lib ProgrammableSolana.Solana ProgrammableSolana.Core
open ProgrammableSolana.Generated (ExecuteEngineGeneratedProbeV0 ExecuteEngineGeneratedProbeV0Args)
open ProgrammableSolana.Routed (ExecuteCallbackAuthenticatedProbeV0
  ExecuteCallbackAuthenticatedProbeV0Args)

/-- Once a receipt is accepted, settlement cannot fail. -/
theorem accepted_receipt_settles [Crypto] :
    (∀ (env : Env Generated.config) (w : Core.World) (a : ExecuteEngineGeneratedProbeV0)
      (d : EnvelopeData) (args : ExecuteEngineGeneratedProbeV0Args),
      Generated.loadExecute w.ledger a = .ok d →
      Generated.validateAccounts env w.ledger a d args = .ok () →
      totalBalance w.ledger a.mintA.key < 2 ^ 64 → totalBalance w.ledger a.mintB.key < 2 ^ 64 →
      (Generated.handleExecuteEngineGeneratedProbeV0 env a args).Ends w
        (Generated.Fault env w a d args) fun _ _ => True) ∧
    ∀ (env : Env Routed.config) (w : Core.World) (a : ExecuteCallbackAuthenticatedProbeV0)
      (d : EnvelopeData) (args : ExecuteCallbackAuthenticatedProbeV0Args) (phase : UInt8),
      Routed.loadExecute w.ledger a = .ok d →
      Routed.validateAccounts env w.ledger a d args = .ok phase →
      totalBalance w.ledger a.mintA.key < 2 ^ 64 → totalBalance w.ledger a.mintB.key < 2 ^ 64 →
      args.expectedEngineSequence.toNat + 1 < 2 ^ 64 →
      ((Routed.reachSettlement env a args).run w).1 ≠ .ok (Bytes.zero 32) →
      (Routed.handleExecuteCallbackAuthenticatedProbeV0 env a args).Ends w
        (Routed.Fault env w a d args phase) fun _ _ => True := by
  constructor
  · intro env w a d args hload hvalid hA hB
    exact Generated.execute_ends hload hvalid hA hB
  · intro env w a d args phase hload hvalid hA hB hexpected hdigest
    exact Routed.execute_ends hload hvalid hA hB hexpected hdigest

section Sample

open Core.Sample
open ProgrammableSolana.Wire.Routed (timingPrepareCommit phasePrepare)

section

attribute [local instance] Generated.Sample.crypto

private theorem generated_sample_checked : ∃ d,
    Generated.loadExecute (world (Generated.Sample.live 0)).ledger Generated.Sample.execute =
      .ok d ∧
    Generated.validateAccounts Generated.Sample.env (world (Generated.Sample.live 0)).ledger
      Generated.Sample.execute d Generated.Sample.executeArgs = .ok () :=
  except_bind_ok_iff.mp (by decide +kernel)

end

section

attribute [local instance] Routed.Sample.crypto

private theorem routed_sample_checked : ∃ d,
    Routed.loadExecute
      (world (Routed.Sample.live timingPrepareCommit 0 Routed.Sample.twoPhase)).ledger
      (Routed.Sample.execute Routed.Sample.twoPhase) = .ok d ∧
    Routed.validateAccounts Routed.Sample.env
      (world (Routed.Sample.live timingPrepareCommit 0 Routed.Sample.twoPhase)).ledger
      (Routed.Sample.execute Routed.Sample.twoPhase) d
      (Routed.Sample.executeArgs timingPrepareCommit Routed.Sample.twoPhase) = .ok phasePrepare :=
  except_bind_ok_iff.mp (by decide +kernel)

end

theorem accepted_receipt_settles_sample :
    (∃ d, (@Generated.handleExecuteEngineGeneratedProbeV0 Generated.Sample.crypto
      Generated.Sample.env Generated.Sample.execute Generated.Sample.executeArgs).Ends
        (world (Generated.Sample.live 0)) (@Generated.Fault Generated.Sample.crypto
          Generated.Sample.env (world (Generated.Sample.live 0)) Generated.Sample.execute d
          Generated.Sample.executeArgs) fun _ _ => True) ∧
    ∃ d, (@Routed.handleExecuteCallbackAuthenticatedProbeV0 Routed.Sample.crypto Routed.Sample.env
      (Routed.Sample.execute Routed.Sample.twoPhase)
      (Routed.Sample.executeArgs timingPrepareCommit Routed.Sample.twoPhase)).Ends
        (world (Routed.Sample.live timingPrepareCommit 0 Routed.Sample.twoPhase))
        (@Routed.Fault Routed.Sample.crypto Routed.Sample.env
          (world (Routed.Sample.live timingPrepareCommit 0 Routed.Sample.twoPhase))
          (Routed.Sample.execute Routed.Sample.twoPhase) d
          (Routed.Sample.executeArgs timingPrepareCommit Routed.Sample.twoPhase) phasePrepare)
        fun _ _ => True := by
  constructor
  · obtain ⟨d, hload, hvalid⟩ := generated_sample_checked
    obtain ⟨hA, hB⟩ := Generated.sample_supply
    have hmintA : Generated.Sample.execute.mintA.key = mintA := rfl
    have hmintB : Generated.Sample.execute.mintB.key = mintB := rfl
    rw [← hmintA] at hA
    rw [← hmintB] at hB
    clear hmintA hmintB
    refine ⟨d, ?_⟩
    generalize world (Generated.Sample.live 0) = w at hload hvalid hA hB ⊢
    generalize Generated.Sample.execute = a at hload hvalid hA hB ⊢
    generalize Generated.Sample.executeArgs = args at hload hvalid ⊢
    generalize Generated.Sample.env = env at hvalid ⊢
    obtain ⟨hsettles, -⟩ := @accepted_receipt_settles Generated.Sample.crypto
    exact hsettles env w a d args hload hvalid (hA.trans_lt (by decide)) (hB.trans_lt (by decide))
  · obtain ⟨d, hload, hvalid⟩ := routed_sample_checked
    obtain ⟨hA, hB⟩ := Routed.sample_supply
    have hdigest := Routed.Sample.reached_digest
    have hmintA : (Routed.Sample.execute Routed.Sample.twoPhase).mintA.key = mintA := rfl
    have hmintB : (Routed.Sample.execute Routed.Sample.twoPhase).mintB.key = mintB := rfl
    have hexpected : (Routed.Sample.executeArgs timingPrepareCommit
        Routed.Sample.twoPhase).expectedEngineSequence.toNat + 1 < 2 ^ 64 := by decide
    have hnonzero : (Except.ok Routed.Sample.twoPhase.settlement : Result Hash) ≠
        .ok (Bytes.zero 32) := by decide
    rw [← hmintA] at hA
    rw [← hmintB] at hB
    rw [← hdigest] at hnonzero
    clear hmintA hmintB hdigest
    refine ⟨d, ?_⟩
    generalize world (Routed.Sample.live timingPrepareCommit 0 Routed.Sample.twoPhase) = w
      at hload hvalid hA hB hnonzero ⊢
    generalize Routed.Sample.execute Routed.Sample.twoPhase = a at hload hvalid hA hB hnonzero ⊢
    generalize Routed.Sample.executeArgs timingPrepareCommit Routed.Sample.twoPhase = args
      at hload hvalid hexpected hnonzero ⊢
    generalize Routed.Sample.env = env at hvalid hnonzero ⊢
    obtain ⟨-, hsettles⟩ := @accepted_receipt_settles Routed.Sample.crypto
    exact hsettles env w a d args phasePrepare hload hvalid (hA.trans_lt (by decide))
      (hB.trans_lt (by decide)) hexpected hnonzero

end Sample

end ProgrammableSolana.Cores
