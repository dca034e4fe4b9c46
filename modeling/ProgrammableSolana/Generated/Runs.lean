import ProgrammableSolana.Core.Runs
import ProgrammableSolana.Engines.GeneratedPlan
import ProgrammableSolana.Generated.ExecuteEffect
import ProgrammableSolana.Solana.Balances

/-! Whole runs of the generated-settlement Core. -/
namespace ProgrammableSolana.Generated

open ProgrammableSolana.Lib ProgrammableSolana.Solana ProgrammableSolana.Core
open ProgrammableSolana.Lib.Custody ProgrammableSolana.Lib.Transactions

section Operations

variable [Crypto]

/-- One top-level instruction: to the Core, with whatever arguments, accounts and engine, or to
another program. -/
inductive Op where
  | initializeMarketDomainV0 (a : InitializeMarketDomainV0) (args : InitializeMarketDomainV0Args)
  | depositV0 (a : DepositV0) (args : DepositV0Args) (hsigners : SignedOutside ID a.infos)
  | executeEngineGeneratedProbeV0 (env : Env config) (a : ExecuteEngineGeneratedProbeV0)
      (args : ExecuteEngineGeneratedProbeV0Args) (hsigners : SignedOutside ID a.infos)
  | external (action : Action ID)

namespace Op

def handle : Op → Handler Unit
  | initializeMarketDomainV0 a args => handleInitializeMarketDomainV0 config a args
  | depositV0 a args _ => handleDepositV0 config a args
  | executeEngineGeneratedProbeV0 env a args _ => handleExecuteEngineGeneratedProbeV0 env a args
  | external action => (action.perform (anyPrivileges ID)).mapError .runtime

def step (o : Op) (w : Core.World) : Result Core.World := o.handle.transact w

end Op

/-- The user signs for the source, so the source is no vault. -/
theorem EngineGenerated.source_outside {env : Env config} {w w' : Core.World}
    {a : ExecuteEngineGeneratedProbeV0} {args : ExecuteEngineGeneratedProbeV0Args}
    {d after : EnvelopeData} {call : GeneratedCall} {receipt : Wire.Generated.EngineReceipt}
    {plan : AcceptedEnginePlan} (h : EngineGenerated env w w' a args d after call receipt plan)
    (hsigners : SignedOutside ID a.infos) : ¬ IsPda config.ID d.userSourceA.owner := by
  rw [h.accounts.source.owner]
  apply hsigners a.user
  · simp [ExecuteEngineGeneratedProbeV0.infos]
  · exact h.accounts.signed

theorem EngineGenerated.refines {env : Env config} {w w' : Core.World}
    {a : ExecuteEngineGeneratedProbeV0} {args : ExecuteEngineGeneratedProbeV0Args}
    {d after : EnvelopeData} {call : GeneratedCall} {receipt : Wire.Generated.EngineReceipt}
    {plan : AcceptedEnginePlan} (h : EngineGenerated env w w' a args d after call receipt plan)
    (hinv : Inv config w.ledger) (hsigners : SignedOutside ID a.infos) :
    Refines config w.ledger (Pi.single a.market.key (plan.terms args).flow) w'.ledger :=
  (h.executed.actsOn hinv (.inl (h.source_outside hsigners))).refines

theorem Op.booked {o : Op} {w w' : Core.World} (h : o.step w = .ok w') (hw : Booked config w) :
    Booked config w' := by
  have h := Exec.transact_ok_iff.mp h
  cases o with
  | initializeMarketDomainV0 a args =>
    obtain ⟨bumps, hinit⟩ := initialize_ok h
    obtain ⟨-, e, he, -⟩ := initialize_logged h
    refine hw.step he ?_
    rw [eventFlow_singleton, CoreEvent.flow_initialized]
    exact hinit.refines
  | depositV0 a args hsigners =>
    obtain ⟨d, hdeposit⟩ := deposit_ok h
    obtain ⟨-, e, he, hmarket, hi, ha⟩ := deposit_logged h
    have hsigner := hsigners a.provider (by simp [DepositV0.infos]) hdeposit.signed
    obtain ⟨r, r', hacts⟩ := hdeposit.actsOn hw.inv hsigner
    refine hw.step he ?_
    rw [eventFlow_singleton, CoreEvent.flow_deposited hi ha, hmarket]
    exact hacts.refines
  | executeEngineGeneratedProbeV0 env a args hsigners =>
    obtain ⟨d, after, call, receipt, plan, hx⟩ := execute_ok h
    obtain ⟨e, he, hmarket, hin, hout⟩ := hx.emitted
    refine hw.step he ?_
    have hflow : (plan.terms args).flow = ⟨args.amountIn.toNat, 0, plan.amountOut.toNat,
        ceilFee args.amountIn.toNat protocolFeeBpsV0.toNat⟩ := by
      rw [SettleTerms.flow, hx.executed.fee]
      rfl
    have hsettled : CoreEvent.settled? (.engineGeneratedProbeExecuted e) =
        some (a.market.key, args.amountIn, plan.amountOut) := by
      rw [CoreEvent.settled?, hmarket, hin, hout]
    rw [eventFlow_singleton, CoreEvent.flow_settled hsettled, ← hflow]
    exact hx.refines hw.inv hsigners
  | external action =>
    have h := Exec.mapError_run_ok_iff.mp h
    obtain ⟨-, he⟩ := Action.perform_quiet h
    exact hw.idle he (refines_of_action h)

/-- Every state a run reaches is accounted for by the events it left. -/
theorem run_booked {w : Core.World} (h : Genesis config w.ledger) (hlog : w.log = [])
    (txs : List (List Op)) : Booked config (run Op.step w txs).1 :=
  run_preserves (P := fun (w : Core.World) _ => Booked config w) (h.booked hlog)
    fun _ _ _ _ _ _ _ hw hstep => Op.booked hstep hw

end Operations

namespace Sample

open ProgrammableSolana.Core.Sample ProgrammableSolana.Engines

def market : SampleMarket where
  marketId := key 83
  market :=
    ⟨[198, 161, 214, 105, 221, 165, 38, 73, 13, 28, 136, 128, 211, 120, 70, 224, 10, 80, 80, 217,
      249, 190, 141, 47, 2, 108, 164, 196, 233, 150, 24, 49], rfl⟩
  domain :=
    ⟨[219, 114, 215, 121, 32, 196, 214, 157, 54, 145, 0, 173, 152, 213, 209, 46, 71, 143, 199, 220,
      96, 37, 210, 83, 144, 30, 199, 226, 232, 188, 53, 121], rfl⟩
  feeLedger :=
    ⟨[13, 99, 234, 17, 237, 90, 236, 50, 196, 80, 215, 25, 20, 14, 79, 74, 88, 83, 177, 140, 208,
      98, 90, 238, 126, 30, 67, 190, 182, 190, 90, 90], rfl⟩
  vaultA :=
    ⟨[250, 204, 38, 105, 86, 194, 148, 153, 234, 26, 50, 137, 9, 135, 153, 224, 122, 124, 237, 205,
      214, 223, 40, 97, 64, 181, 14, 133, 4, 243, 209, 149], rfl⟩
  vaultB :=
    ⟨[142, 156, 18, 199, 34, 52, 144, 198, 186, 210, 7, 120, 248, 221, 232, 141, 0, 110, 64, 58,
      133, 247, 45, 121, 216, 238, 52, 182, 90, 136, 134, 26], rfl⟩
  feeVault :=
    ⟨[17, 105, 12, 82, 232, 71, 201, 56, 205, 211, 29, 34, 112, 196, 95, 159, 80, 54, 3, 134, 198,
      185, 122, 124, 241, 158, 188, 177, 122, 127, 236, 123], rfl⟩

def capabilityHash : Hash :=
  ⟨[133, 79, 110, 84, 40, 201, 23, 117, 6, 197, 112, 148, 156, 236, 9, 107, 136, 97, 132, 178, 112,
    146, 139, 177, 84, 59, 226, 190, 111, 57, 198, 103], rfl⟩

def payloadHash : Hash :=
  ⟨[126, 236, 254, 245, 194, 60, 38, 144, 30, 208, 202, 154, 133, 10, 64, 92, 29, 65, 58, 15, 178,
    247, 29, 93, 199, 181, 231, 209, 132, 167, 36, 220], rfl⟩

/-- The digest of the first of two executions with the same terms. -/
def requestHash : Hash :=
  ⟨[233, 198, 183, 55, 99, 33, 216, 85, 235, 24, 223, 218, 52, 114, 230, 25, 162, 204, 240, 219, 56,
    226, 242, 102, 69, 113, 237, 168, 63, 116, 103, 61], rfl⟩

/-- The digest of the second. -/
def nextRequestHash : Hash :=
  ⟨[35, 147, 3, 206, 222, 238, 218, 148, 37, 242, 91, 225, 93, 233, 47, 234, 105, 46, 185, 203, 183,
    29, 117, 182, 10, 159, 114, 4, 29, 118, 191, 116], rfl⟩

/-- `Sysvar1111111111111111111111111111111111111`. -/
def sysvarOwner : Pubkey :=
  ⟨[6, 167, 213, 23, 24, 117, 247, 41, 199, 61, 147, 64, 143, 33, 97, 32, 6, 126, 216, 140, 118,
    224, 140, 40, 127, 193, 148, 96, 0, 0, 0, 0], rfl⟩

/-- An account of some other program, passed to the engine twice. -/
def opaqueAccount : Pubkey := key 28

def engineAccount (mode : UInt8) : Account CoreState where
  owner := GeneratedPlan.ID
  executable := false
  data := .raw (GeneratedPlan.EngineState.trySerialize
    { authority := user, market := market.market, revision := 1, lpFeeBps := 30, sequence := 0,
      lastRequestHash := Bytes.zero 32, lastAmountOut := 0, capabilityAuthorityBump := 255, mode })

/-- The engine's state is ready before its market is. -/
def genesis (mode : UInt8) : Ledger := .ofList [
  (mintA, mintAccount), (mintB, mintAccount), (sourceA, tokenAccount mintA 1000000),
  (sourceB, tokenAccount mintB 1000000), (destinationB, tokenAccount mintB 0),
  (GeneratedPlan.ID, program), (engineState, engineAccount mode),
  (instructionsSysvarId, ⟨sysvarOwner, false, .raw []⟩),
  (opaqueAccount, ⟨key 5, false, .raw [0]⟩), (tokenProgram, program), (systemProgram, program)]

def opening : InitializeMarketDomainV0 :=
  { Core.Sample.opening market with engineProgram := readonly GeneratedPlan.ID }

def depositA : DepositV0 :=
  { depositB market with
    mint := readonly mintA, providerSource := writable sourceA,
    domainVault := writable market.vaultA }

def execute : ExecuteEngineGeneratedProbeV0 where
  toEnvelope := { envelope market with engineProgram := readonly GeneratedPlan.ID }
  user := signer user
  instructionsSysvar := readonly instructionsSysvarId
  remainingAccounts := [writable opaqueAccount, readonly opaqueAccount]

def executeArgs : ExecuteEngineGeneratedProbeV0Args where
  amountIn := 100
  maxTotalInputDebit := 101
  minOutputCredit := 70
  maxProtocolFee := 1
  expiresAtSlot := 100
  expectedCapabilityHash := capabilityHash
  opaquePayload := [7]

/-- The accounts of the execution once both sides hold a deposit of 1000. -/
def data : EnvelopeData where
  market := newMarket opening (openingArgs market) ⟨255, 255, 255, 255, 255, 255⟩
  domain := { newDomain opening (openingArgs market) ⟨255, 255, 255, 255, 255, 255⟩ with
    accountedA := 1000, accountedB := 1000 }
  feeLedger := newFeeLedger opening ⟨255, 255, 255, 255, 255, 255⟩
  mintA := ⟨none, 0, 6, true, none⟩
  mintB := ⟨none, 0, 6, true, none⟩
  userSourceA := { newTokenAccount mintA user with amount := 999000 }
  userDestinationB := newTokenAccount mintB user
  vaultA := { newTokenAccount mintA market.domain with amount := 1000 }
  vaultB := { newTokenAccount mintB market.domain with amount := 1000 }
  feeVault := newTokenAccount mintA market.feeLedger

/-- The accounts of the second execution. -/
def nextData : EnvelopeData :=
  { data with
    domain := { data.domain with accountedA := 1100, accountedB := 910 }
    feeLedger := { data.feeLedger with accountedFeeA := 1 } }

/-- What is known of one request: the preimage of its digest, where the encoding exists. -/
def known (d : EnvelopeData) (digest : Hash) : List (List UInt8 × Hash) :=
  match Wire.Generated.encodeRequestBinding
      (requestBinding execute d executeArgs 1 capabilityHash payloadHash) with
  | .ok encoded => [(Wire.Generated.requestHashDomain ++ encoded, digest)]
  | .error _ => []

def executionDigests : List (List UInt8 × Hash) :=
  [(Wire.Generated.capabilityHashDomain ++ Wire.encodedCapabilities GeneratedPlan.ID
      [⟨engineState, GeneratedPlan.ID, true, false, false⟩,
        ⟨instructionsSysvarId, sysvarOwner, false, false, false⟩,
        ⟨opaqueAccount, key 5, true, false, false⟩, ⟨opaqueAccount, key 5, true, false, false⟩],
      capabilityHash),
    (Wire.Generated.payloadHashDomain ++ Wire.encodedPayload [7], payloadHash)] ++
  known data requestHash ++ known nextData nextRequestHash

@[reducible]
def crypto : Crypto := .ofKnown (digests config market ++ executionDigests) [user]

attribute [local instance] crypto

/-- The transaction whose top-level instruction is the execution. -/
def top : GeneratedPlan.Introspection where
  stackHeight := 2
  programId := ID
  data := GeneratedPlan.coreExecuteEngineGeneratedProbeDiscriminator

/-- The reference engine, called at slot 50. -/
def env : Env config where
  slot := 50
  stackHeight := 1
  callee := GeneratedPlan.respond top fun _ _ => none

def opOpening : Op := .initializeMarketDomainV0 opening (openingArgs market)

def opDepositA : Op :=
  .depositV0 depositA ⟨assetAIndexV0, 1000⟩ (.of_onCurve (by decide +kernel))

def opDepositB : Op :=
  .depositV0 (depositB market) ⟨assetBIndexV0, 1000⟩ (.of_onCurve (by decide +kernel))

def opExecute : Op :=
  .executeEngineGeneratedProbeV0 env execute executeArgs (.of_onCurve (by decide +kernel))

def txs : List (List Op) := [[opOpening], [opDepositA, opDepositB], [opExecute], [opExecute]]

/-- A ledger in which the execution can take place: the accounts of the market, each side with
its deposit. -/
def live (mode : UInt8) : Ledger := .ofList [
  (market.market, ⟨ID, false, .state (.market data.market)⟩),
  (market.domain, ⟨ID, false, .state (.domain data.domain)⟩),
  (market.feeLedger, ⟨ID, false, .state (.feeLedger data.feeLedger)⟩),
  (mintA, mintAccount), (mintB, mintAccount),
  (sourceA, ⟨tokenProgram, false, .token data.userSourceA⟩),
  (destinationB, ⟨tokenProgram, false, .token data.userDestinationB⟩),
  (market.vaultA, ⟨tokenProgram, false, .token data.vaultA⟩),
  (market.vaultB, ⟨tokenProgram, false, .token data.vaultB⟩),
  (market.feeVault, ⟨tokenProgram, false, .token data.feeVault⟩),
  (GeneratedPlan.ID, program), (engineState, engineAccount mode),
  (instructionsSysvarId, ⟨sysvarOwner, false, .raw []⟩),
  (opaqueAccount, ⟨key 5, false, .raw [0]⟩), (tokenProgram, program)]

end Sample

section Solvency

variable [Crypto]

/-- Solvency and exact history over whole runs, whatever the engines answer. -/
theorem generated_run_solvent (w : Core.World) (h : Genesis config w.ledger) (hlog : w.log = [])
    (txs : List (List Op)) (key : Pubkey) (m : MarketV0)
    (hm : (run Op.step w txs).1.ledger.state? ID key = some (.market m)) :
    ∃ r, r.market = m ∧ MarketOk config (run Op.step w txs).1.ledger key r ∧
      r.domain.accountedA ≤ r.vaultA.amount ∧ r.domain.accountedB ≤ r.vaultB.amount ∧
      r.feeLedger.accountedFeeA ≤ r.feeVault.amount ∧
      (∀ v ∈ [r.vaultA, r.vaultB, r.feeVault], v.delegate = none ∧ v.closeAuthority = none) ∧
      r.domain.accountedA.toNat =
        ((emittedEvents (run Op.step w txs).1.log).map
          (CoreEvent.deposited assetAIndexV0 key)).sum +
        ((emittedEvents (run Op.step w txs).1.log).map (CoreEvent.amountIn key)).sum ∧
      r.domain.accountedB.toNat +
          ((emittedEvents (run Op.step w txs).1.log).map (CoreEvent.amountOut key)).sum =
        ((emittedEvents (run Op.step w txs).1.log).map
          (CoreEvent.deposited assetBIndexV0 key)).sum ∧
      r.feeLedger.accountedFeeA.toNat =
        ((emittedEvents (run Op.step w txs).1.log).map (CoreEvent.protocolFee key)).sum := by
  have hbooked := run_booked h hlog txs
  exact hbooked.market hm

end Solvency

section Sample

attribute [local instance] Sample.crypto

theorem sample_supply :
    totalBalance (Core.Sample.world (Sample.live 0)).ledger Core.Sample.mintA = 1000000 ∧
      totalBalance (Core.Sample.world (Sample.live 0)).ledger Core.Sample.mintB = 1000 := by
  unfold Sample.live Core.Sample.world
  rw [totalBalance_ofList (by decide +kernel), totalBalance_ofList (by decide +kernel)]
  decide +kernel

private theorem sample_genesis : Genesis config (Core.Sample.world (Sample.genesis 0)).ledger := by
  apply Genesis.ofList
  decide +kernel

private theorem sample_run :
    (run Op.step (Core.Sample.world (Sample.genesis 0)) Sample.txs).1.ledger.state? ID
        Sample.market.market = some (.market Sample.data.market) ∧
    let events := emittedEvents (run Op.step (Core.Sample.world (Sample.genesis 0)) Sample.txs).1.log
    (events.map (CoreEvent.deposited assetAIndexV0 Sample.market.market)).sum = 1000 ∧
      (events.map (CoreEvent.amountIn Sample.market.market)).sum = 200 ∧
      (events.map (CoreEvent.protocolFee Sample.market.market)).sum = 2 := by
  decide +kernel

theorem generated_run_solvent_sample : ∃ r, r.market = Sample.data.market ∧
    MarketOk config (run Op.step (Core.Sample.world (Sample.genesis 0)) Sample.txs).1.ledger
      Sample.market.market r ∧
    r.domain.accountedA.toNat = 1200 ∧ 1200 ≤ r.vaultA.amount.toNat ∧
    r.feeLedger.accountedFeeA.toNat = 2 := by
  obtain ⟨hm, hA, hin, hfee⟩ := sample_run
  obtain ⟨r, hrm, hr, hcovers, -, -, -, hbooks, -, hbookFee⟩ := generated_run_solvent
    (Core.Sample.world (Sample.genesis 0)) sample_genesis rfl Sample.txs _ _ hm
  rw [hA, hin] at hbooks
  rw [hfee] at hbookFee
  rw [UInt64.le_iff_toNat_le, hbooks] at hcovers
  exact ⟨r, hrm, hr, hbooks, hcovers, hbookFee⟩

end Sample

end ProgrammableSolana.Generated
