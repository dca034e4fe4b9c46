import ProgrammableSolana.Routed.HostileRouter
import ProgrammableSolana.Routed.Runs

/-! Forwarding through the router: an execution comes to the same whether it is submitted to the Core
or forwarded to it, an authorization only goes through when it is submitted. -/
namespace ProgrammableSolana.Routed.HostileRouter

open ProgrammableSolana.Lib ProgrammableSolana.Solana ProgrammableSolana.Core

private theorem ID_ne_core : Routed.ID ∉ [ID] := by decide

private theorem presented_normalizedMetas {accounts : List AccountInfo} (h : Unioned accounts)
    (data : List UInt8) :
    (Instruction.mk Routed.ID (normalizedMetas accounts) data).presented = accounts := by
  rw [normalizedMetas_of_unioned h]
  exact presented_of_unioned h Routed.ID data

/-- The router is presented the list it is submitted with behind the Core. -/
theorem presented_behind_core {metas : List AccountMeta} (hcore : ∀ m ∈ metas, m.pubkey ≠ Routed.ID)
    (programId : Pubkey) (data data' : List UInt8) :
    (Instruction.mk programId (.newReadonly Routed.ID false :: metas) data).presented =
      ⟨Routed.ID, false, false⟩ :: (Instruction.mk Routed.ID metas data').presented := by
  have hnone : ∀ flag : AccountMeta → Bool,
      (metas.any fun n => n.pubkey = Routed.ID && flag n) = false := by
    intro flag
    simp only [List.any_eq_false, Bool.and_eq_true, decide_eq_true_eq, not_and]
    intro m hm hkey
    exact absurd hkey (hcore m hm)
  unfold Instruction.presented
  simp only [List.map_cons, List.any_cons, AccountMeta.newReadonly, hnone]
  congr 1
  apply List.map_congr_left
  intro m hm
  have hne : ¬ Routed.ID = m.pubkey := fun heq => hcore m hm heq.symm
  simp only [hne, decide_false, Bool.false_and, Bool.false_or]

section

variable [Crypto]

/-- Forwarding runs the Core one level below the router, on the accounts the router was given. -/
theorem forwardCore_run {env : RouterEnv} {coreProgram : AccountInfo} {accounts : List AccountInfo}
    {data : List UInt8} {w : Core.World} (hunioned : Unioned accounts)
    (hkey : coreProgram.key = Routed.ID) (hcode : (w.ledger Routed.ID).executable = true)
    (hdata : data ≠ []) (hsize : data.length ≤ maxForwardedInstructionDataLen) :
    (forwardCore env coreProgram accounts data).run w =
      (((Routed.entry env.slot env.callee 2 accounts data).mapError fun e =>
        RouteError.core (.callee e)).run { w with returnData := none }) := by
  have hmetas : ∀ m ∈ normalizedMetas accounts, ∃ info ∈ accounts,
      m = ⟨info.key, info.isSigner, info.isWritable⟩ := by
    intro m hm
    rw [normalizedMetas_of_unioned hunioned] at hm
    obtain ⟨info, hinfo, rfl⟩ := List.mem_map.mp hm
    exact ⟨info, hinfo, rfl⟩
  have hinfos : ∀ m ∈ normalizedMetas accounts,
      ∃ info ∈ accounts ++ [coreProgram], info.key = m.pubkey := by
    intro m hm
    obtain ⟨info, hinfo, rfl⟩ := hmetas m hm
    exact ⟨info, List.mem_append_left _ hinfo, rfl⟩
  have hgranted : ∀ m ∈ normalizedMetas accounts, m.Granted (coreProgram :: accounts) [] := by
    intro m hm
    obtain ⟨info, hinfo, rfl⟩ := hmetas m hm
    constructor
    · intro hw
      exact ⟨info, List.mem_cons_of_mem _ hinfo, rfl, hw⟩
    · intro hs
      exact .inl ⟨info, List.mem_cons_of_mem _ hinfo, rfl, hs⟩
  have hinvoke : ((Routed.entry env.slot env.callee).invoke [ID] (coreProgram :: accounts)
      ⟨Routed.ID, normalizedMetas accounts, data⟩ (accounts ++ [coreProgram])).run w =
        (((Routed.entry env.slot env.callee).enter 2
          ⟨Routed.ID, normalizedMetas accounts, data⟩).mapError .callee).run w :=
    Program.invoke_run hinfos hgranted ⟨coreProgram, List.mem_cons_self, hkey⟩ hcode ID_ne_core
  have hpresented := presented_normalizedMetas hunioned data
  unfold forwardCore
  rw [Exec.run_bind_of_ok (Exec.run_ensure ⟨hdata, hsize⟩), Exec.mapError_run, hinvoke,
    ← Exec.mapError_run, Exec.mapError_mapError]
  unfold Program.enter
  rw [hpresented]
  rfl

private theorem forwardOnce_run {env : RouterEnv} {w : Core.World} {metas : List AccountMeta}
    {data : List UInt8} (hlen : metas.length ≤ maxForwardedAccounts)
    (hcore : ∀ m ∈ metas, m.pubkey ≠ Routed.ID) (hdata : data ≠ [])
    (hsize : data.length ≤ maxForwardedInstructionDataLen)
    (hcode : (w.ledger Routed.ID).executable = true) :
    ((program env).submit ⟨ID, .newReadonly Routed.ID false :: metas, forwardOnceData data⟩).run w =
      ((Routed.entry env.slot env.callee 2 (Instruction.mk Routed.ID metas data).presented
        data).mapError fun e => RouteError.core (.callee e)).run { w with returnData := none } := by
  have hargs : deserialize (readRouteProbeArgs ([0] ++ (leBytes 4 data.length ++ data))) =
      some ⟨.forwardOnce, data⟩ := readRouteProbeArgs_forwardOnce (hsize.trans_lt (by decide))
  have henvelope : validateRouterEnvelope w.ledger ⟨Routed.ID, false, false⟩
      (Instruction.mk Routed.ID metas data).presented = .ok () := by
    have hfew : (Instruction.mk Routed.ID metas data).presented.length ≤ maxForwardedAccounts := by
      rw [Instruction.presented_length]
      exact hlen
    unfold validateRouterEnvelope
    rw [require_of rfl, except_ok_bind, require_of hcode, except_ok_bind, require_of ⟨rfl, rfl⟩,
      except_ok_bind, require_of hfew]
  have hchecked : (validateRouterEnvelope w.ledger ⟨Routed.ID, false, false⟩
      (Instruction.mk Routed.ID metas data).presented).mapError RouteError.router = .ok () := by
    rw [henvelope]
    rfl
  have htake : (forwardOnceData data).take 8 = routeDiscriminator.toList := rfl
  have hdrop : (forwardOnceData data).drop 8 =
      [0] ++ (leBytes 4 data.length ++ data) := rfl
  unfold Program.submit Program.enter
  rw [Exec.run_bind_of_ok (Exec.run_modify _ w), presented_behind_core hcore ID _ data]
  unfold program
  dsimp only
  rw [if_pos htake, hdrop, hargs]
  dsimp only [route]
  rw [Exec.run_bind_of_ok (Exec.run_get _), hchecked,
    Exec.run_bind_of_ok (Exec.run_ofExcept _ _)]
  exact forwardCore_run (Instruction.presented_unioned _) rfl hcode hdata hsize

private theorem authorize_invoked {slot : UInt64} {callee : Callee CoreState Routed.ID}
    {ix : Instruction}
    (hdata : ix.data.take 8 = authorizeSpendV0Discriminator.toList) {stack : List Pubkey}
    (hstack : stack ≠ []) (caller infos : List AccountInfo) (w : Core.World) :
    ∃ err w', ((Routed.entry slot callee).invoke stack caller ix infos).run w = (.error err, w') ∧
      w'.ledger = w.ledger ∧ w'.log = w.log := by
  have hheight : stack.length + 1 ≠ transactionLevelStackHeight := by
    have hpos := List.length_pos_iff.mpr hstack
    unfold transactionLevelStackHeight
    omega
  have hends : ((Routed.entry slot callee).invoke stack caller ix infos).Ends w
      (fun _ w' => w'.ledger = w.ledger ∧ w'.log = w.log) (fun _ _ => False) := by
    apply Program.invoke_ends
    · intro e
      exact ⟨rfl, rfl⟩
    · obtain ⟨err, herr⟩ := authorizeSpendV0_nested hdata hheight ix.presented
        { w with returnData := none }
      have hrun : ((Routed.entry slot callee).enter (stack.length + 1) ix).run w =
          (.error err, { w with returnData := none }) := herr
      unfold Exec.Ends
      rw [Exec.mapError_run_of_error hrun]
      exact ⟨rfl, rfl⟩
  cases hrun : ((Routed.entry slot callee).invoke stack caller ix infos).run w with
  | mk result w' =>
    cases result with
    | ok u => exact (hends.of_ok hrun).elim
    | error err => exact ⟨err, w', rfl, hends.of_error hrun⟩

/-- Direct and routed execution are equivalent: at every position the router asks for the union of
what was submitted, so that the Core is presented the same accounts and ends with the same result
in the same world. An authorization invoked by any program fails without effect. -/
theorem forwardOnce_eq_direct (env : RouterEnv) (w : Core.World) (metas : List AccountMeta)
    (data : List UInt8) (hlen : metas.length ≤ 64) (hcore : ∀ m ∈ metas, m.pubkey ≠ Routed.ID)
    (hdata : data.take 8 = executeCallbackAuthenticatedProbeV0Discriminator.toList)
    (hsize : data.length ≤ 10240)
    (hcode : (w.ledger Routed.ID).executable = true) :
    normalizedMetas (Instruction.mk Routed.ID metas data).presented = metas.map (fun m =>
      ⟨m.pubkey, metas.any fun n => n.pubkey = m.pubkey && n.isSigner,
        metas.any fun n => n.pubkey = m.pubkey && n.isWritable⟩) ∧
    (Instruction.mk Routed.ID (normalizedMetas (Instruction.mk Routed.ID metas data).presented)
      data).presented = (Instruction.mk Routed.ID metas data).presented ∧
    ((program env).submit ⟨ID, .newReadonly Routed.ID false :: metas, forwardOnceData data⟩).run w =
      (((Routed.entry env.slot env.callee).submit ⟨Routed.ID, metas, data⟩).mapError fun e =>
        RouteError.core (.callee e)).run w ∧
    ∀ ix : Instruction, ix.data.take 8 = authorizeSpendV0Discriminator.toList →
      ∀ stack ≠ [], ∀ caller infos, ∃ err w',
        ((Routed.entry env.slot env.callee).invoke stack caller ix infos).run w =
          (.error err, w') ∧ w'.ledger = w.ledger ∧ w'.log = w.log := by
  have hunioned := Instruction.presented_unioned ⟨Routed.ID, metas, data⟩
  have hne : data ≠ [] := by
    intro hnil
    rw [hnil] at hdata
    exact absurd hdata (by decide)
  have hexecute : data.take 8 ≠ authorizeSpendV0Discriminator.toList := by
    rw [hdata]
    decide
  refine ⟨?_, presented_normalizedMetas hunioned data, ?_, ?_⟩
  · rw [normalizedMetas_of_unioned hunioned]
    unfold Instruction.presented
    rw [List.map_map]
    rfl
  · rw [forwardOnce_run hlen hcore hne hsize hcode, processInstruction_stackHeight hexecute 2 1]
    rfl
  · intro ix hix stack hstack caller infos
    exact authorize_invoked hix hstack caller infos w

end

section Sample

open ProgrammableSolana.Core.Sample ProgrammableSolana.Wire.Routed

attribute [local instance] Routed.Sample.crypto

/-- The arguments of the sample as instruction data. -/
def sampleData : List UInt8 :=
  let args := Routed.Sample.executeArgs timingPrepareCommit Routed.Sample.twoPhase
  executeCallbackAuthenticatedProbeV0Discriminator.toList ++ (u64LeBytes args.amountIn).toList ++
    (u64LeBytes args.maxTotalInputDebit).toList ++ (u64LeBytes args.minOutputCredit).toList ++
    (u64LeBytes args.maxProtocolFee).toList ++ (u64LeBytes args.expiresAtSlot).toList ++
    args.authorizationNonce.toList ++ (u64LeBytes args.expectedEngineSequence).toList ++
    [args.timingMode] ++ args.expectedCapabilityHash.toList ++
    leBytes 4 args.opaquePayload.length ++ args.opaquePayload

def sampleMetas : List AccountMeta :=
  (Routed.Sample.execute Routed.Sample.twoPhase).infos.map fun info =>
    ⟨info.key, info.isSigner, info.isWritable⟩

/-- The world of the sample, where the Core is deployed. -/
def sampleWorld : Core.World :=
  world (Function.update (Routed.Sample.live timingPrepareCommit 0 Routed.Sample.twoPhase) Routed.ID
    Core.Sample.program)

def sampleEnv : RouterEnv := ⟨Routed.Sample.env.slot, Routed.Sample.env.callee, fun _ _ => none⟩

theorem forwardOnce_eq_direct_sample : ∃ w',
    ((program sampleEnv).submit
      ⟨ID, .newReadonly Routed.ID false :: sampleMetas, forwardOnceData sampleData⟩).run sampleWorld =
        (.ok (), w') := by
  obtain ⟨-, -, hrun, -⟩ := forwardOnce_eq_direct sampleEnv sampleWorld sampleMetas sampleData
    (by decide +kernel) (by decide +kernel) (by decide +kernel) (by decide +kernel)
    (by decide +kernel)
  have hdirect : (((Routed.entry sampleEnv.slot sampleEnv.callee).submit
      ⟨Routed.ID, sampleMetas, sampleData⟩).run sampleWorld).1 = .ok () := by
    decide +kernel
  rw [hrun]
  exact ⟨_, Exec.mapError_run_ok_iff.mpr (Exec.run_of_fst hdirect)⟩

end Sample

end ProgrammableSolana.Routed.HostileRouter
