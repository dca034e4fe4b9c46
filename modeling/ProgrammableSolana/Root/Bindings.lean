import ProgrammableSolana.Core.Bindings
import ProgrammableSolana.Root.Runs

/-! In every reachable state the accounts that pass Core's binding checks together are those of one
initialization, and no operation changes what an account is. -/
namespace ProgrammableSolana.Root

open ProgrammableSolana.Lib ProgrammableSolana.Solana ProgrammableSolana.Core
open ProgrammableSolana.Lib.Transactions

section Registers

variable [Crypto]

/-- The initialization an operation is. -/
def Op.opens : Op → List (InitializeMarketDomainV0 × InitializeMarketDomainV0Args)
  | .initializeMarketDomainV0 a args => [(a, args)]
  | .depositV0 .. => []
  | .executeEngineProbeV0 .. => []
  | .external _ => []

private theorem confined_of_external {action : Action ID} {w w' : Core.World} {u : Unit}
    (h : ((action.perform (anyPrivileges ID)).mapError Core.Error.runtime).run w = (.ok u, w')) :
    Confined ID (anyPrivileges ID).writable w.ledger w'.ledger :=
  Action.perform_confined config.ID_ne_token config.ID_ne_system (by simp [anyPrivileges])
    (Exec.mapError_run_ok_iff.mp h)

private theorem step_keeps {o : Op} {w w' : Core.World} (h : o.step w = .ok w') :
    Keeps config w.ledger w'.ledger := by
  have h := Exec.transact_ok_iff.mp h
  cases o with
  | initializeMarketDomainV0 a args =>
    obtain ⟨bumps, hinit⟩ := initialize_ok h
    exact hinit.identities_kept
  | depositV0 a args hsigners =>
    obtain ⟨d, hdeposit⟩ := deposit_ok h
    exact hdeposit.identities_kept
  | executeEngineProbeV0 env a args hsigners =>
    obtain ⟨d, after, plan, receipt, hprobed⟩ := execute_ok h
    exact hprobed.executed.identities_kept
  | external action =>
    have hconf := confined_of_external h
    exact keeps_of_confined hconf

private theorem step_registered {o : Op} {w w' : Core.World}
    {inits : List (InitializeMarketDomainV0 × InitializeMarketDomainV0Args)}
    (h : o.step w = .ok w') (hreg : Registered config w.ledger inits) :
    Registered config w'.ledger (inits ++ o.opens) := by
  have hkeeps := step_keeps h
  have h := Exec.transact_ok_iff.mp h
  cases o with
  | initializeMarketDomainV0 a args =>
    obtain ⟨bumps, hinit⟩ := initialize_ok h
    exact hreg.opening hinit
  | depositV0 a args hsigners =>
    obtain ⟨d, hdeposit⟩ := deposit_ok h
    rw [Op.opens, List.append_nil]
    exact hreg.kept hkeeps fun _ _ => hdeposit.state_old
  | executeEngineProbeV0 env a args hsigners =>
    obtain ⟨d, after, plan, receipt, hprobed⟩ := execute_ok h
    rw [Op.opens, List.append_nil]
    exact hreg.kept hkeeps fun _ _ => hprobed.executed.state_old
  | external action =>
    rw [Op.opens, List.append_nil]
    have hconf := confined_of_external h
    exact hreg.kept hkeeps fun k s hs => ⟨s, state_of_confined hconf hs⟩

private theorem registered_of_genesis {L : Ledger} (h : Genesis config L) : Registered config L [] where
  opened _ hp := absurd hp List.not_mem_nil
  origin k _ hs := absurd (Ledger.state?_eq_some.mp hs).1 (h k)

private theorem run_registered {w : Core.World} (h : Genesis config w.ledger) (txs : List (List Op)) :
    Registered config (run Op.step w txs).1.ledger ((run Op.step w txs).2.flatMap Op.opens) := by
  refine run_preserves (P := fun (w : Core.World) history =>
    Registered config w.ledger (history.flatMap Op.opens)) (registered_of_genesis h)
    fun w history tx _ o _ w' hreg hstep => ?_
  rw [List.flatMap_append, List.flatMap_singleton]
  exact step_registered hstep hreg

private theorem run_keeps (w : Core.World) (txs : List (List Op)) :
    Keeps config w.ledger (run Op.step w txs).1.ledger :=
  run_preserves (P := fun (w' : Core.World) _ => Keeps config w.ledger w'.ledger) (.refl _)
    fun _ _ _ _ _ _ _ hkeeps hstep => hkeeps.trans (step_keeps hstep)

private theorem mem_opens_iff {history : List Op} {a : InitializeMarketDomainV0}
    {args : InitializeMarketDomainV0Args} :
    (a, args) ∈ history.flatMap Op.opens ↔ Op.initializeMarketDomainV0 a args ∈ history := by
  rw [List.mem_flatMap]
  constructor
  · rintro ⟨o, ho, hmem⟩
    cases o with
    | initializeMarketDomainV0 a' args' =>
      obtain ⟨rfl, rfl⟩ := Prod.mk.inj (List.mem_singleton.mp hmem)
      exact ho
    | depositV0 | executeEngineProbeV0 | external => cases hmem
  · intro ho
    exact ⟨_, ho, List.mem_singleton_self _⟩

/-- In every reachable state the binding checks pass exactly on the accounts of one successful
initialization; whatever happens later they still pass, and every account keeps its identity. -/
theorem run_bindings (w : Core.World) (h : Genesis config w.ledger) (txs : List (List Op))
    (m d f va vb fv : Pubkey) :
    (BindingChecks config (run Op.step w txs).1.ledger m d f va vb fv ↔
      ∃ a args, .initializeMarketDomainV0 a args ∈ (run Op.step w txs).2 ∧
        a.Creates m d f va vb fv) ∧
    ∀ txs', Keeps config (run Op.step w txs).1.ledger (run Op.step w (txs ++ txs')).1.ledger ∧
      (BindingChecks config (run Op.step w txs).1.ledger m d f va vb fv →
        BindingChecks config (run Op.step w (txs ++ txs')).1.ledger m d f va vb fv) := by
  have hiff : ∀ txs, BindingChecks config (run Op.step w txs).1.ledger m d f va vb fv ↔
      ∃ a args, .initializeMarketDomainV0 a args ∈ (run Op.step w txs).2 ∧
        a.Creates m d f va vb fv := by
    intro txs
    rw [(run_registered h txs).passes_iff, Prod.exists]
    simp only [mem_opens_iff]
  refine ⟨hiff txs, fun txs' => ⟨?_, fun hchecks => ?_⟩⟩
  · rw [run_append]
    exact run_keeps _ txs'
  · obtain ⟨a, args, hmem, hcreates⟩ := (hiff txs).mp hchecks
    refine (hiff (txs ++ txs')).mpr ⟨a, args, ?_, hcreates⟩
    rw [run_append]
    exact List.mem_append_left _ hmem

end Registers

section Sample

attribute [local instance] Sample.crypto

open Core.Sample

private theorem sample_history : (run Op.step (world genesis) Sample.txs).2 = Sample.txs.flatten :=
  run_history_of_length (by decide +kernel)

theorem run_bindings_sample :
    BindingChecks config (run Op.step (world genesis) Sample.txs).1.ledger Sample.market.market
      Sample.market.domain Sample.market.feeLedger Sample.market.vaultA Sample.market.vaultB
      Sample.market.feeVault ∧
    ¬ BindingChecks config (run Op.step (world genesis) Sample.txs).1.ledger Sample.market.market
      Sample.market.domain Sample.market.feeLedger Sample.market.vaultA Sample.market.vaultB
      Sample.otherMarket.feeVault := by
  constructor
  · refine (run_bindings (world genesis) sample_genesis Sample.txs _ _ _ _ _ _).1.mpr
      ⟨opening Sample.market, openingArgs Sample.market, ?_, rfl, rfl, rfl, rfl, rfl, rfl⟩
    rw [sample_history]
    exact List.mem_cons_self
  · intro hchecks
    obtain ⟨a, args, hmem, hmarket, -, -, -, -, hvault⟩ :=
      (run_bindings (world genesis) sample_genesis Sample.txs _ _ _ _ _ _).1.mp hchecks
    rw [sample_history] at hmem
    simp only [Sample.txs, List.flatten_cons, List.flatten_nil, List.cons_append, List.nil_append,
      List.append_nil, List.mem_cons, List.not_mem_nil, or_false, Sample.opOpening,
      Sample.opDeposit, Sample.opExecute, Op.initializeMarketDomainV0.injEq, reduceCtorEq] at hmem
    rcases hmem with ⟨rfl, rfl⟩ | ⟨rfl, rfl⟩
    · revert hvault
      decide
    · revert hmarket
      decide

end Sample

end ProgrammableSolana.Root
