import ProgrammableSolana.Core.DepositEffect
import ProgrammableSolana.Core.InitializeEffect
import ProgrammableSolana.Core.Runs
import ProgrammableSolana.Root.ExecuteEffect
import Mathlib.Algebra.BigOperators.Pi

/-! Whole runs of the authority-kernel Core: solvency, exact history, and the isolation of
markets from each other. -/
namespace ProgrammableSolana.Root

open ProgrammableSolana.Lib ProgrammableSolana.Solana ProgrammableSolana.Core
open ProgrammableSolana.Lib.Custody ProgrammableSolana.Lib.Transactions

section Operations

variable [Crypto]

/-- One instruction: to the Core, with whatever arguments, accounts and engine, or to another
program. -/
inductive Op where
  | initializeMarketDomainV0 (a : InitializeMarketDomainV0) (args : InitializeMarketDomainV0Args)
  | depositV0 (a : DepositV0) (args : DepositV0Args) (hsigners : SignedOutside ID a.infos)
  | executeEngineProbeV0 (env : Env config) (a : ExecuteEngineProbeV0)
      (args : ExecuteEngineProbeV0Args) (hsigners : SignedOutside ID a.infos)
  | external (action : Action ID)

namespace Op

def handle : Op → Handler Unit
  | initializeMarketDomainV0 a args => handleInitializeMarketDomainV0 config a args
  | depositV0 a args _ => handleDepositV0 config a args
  | executeEngineProbeV0 env a args _ => handleExecuteEngineProbeV0 env a args
  | external action => (action.perform (anyPrivileges ID)).mapError .runtime

def step (o : Op) (w : Core.World) : Result Core.World := o.handle.transact w

/-- What the operation means for the books, read off its arguments. -/
def flow : Op → Pubkey → Flow
  | initializeMarketDomainV0 _ _ => 0
  | depositV0 a args _ => Pi.single a.market.key args.flow
  | executeEngineProbeV0 _ a args _ => Pi.single a.market.key
      ⟨args.amountIn.toNat, 0, args.amountOut.toNat,
        ceilFee args.amountIn.toNat protocolFeeBpsV0.toNat⟩
  | external _ => 0

theorem refines {o : Op} {w w' : Core.World} (h : o.step w = .ok w') (hinv : Inv config w.ledger) :
    Refines config w.ledger o.flow w'.ledger := by
  have h := Exec.transact_ok_iff.mp h
  cases o with
  | initializeMarketDomainV0 a args =>
    obtain ⟨bumps, hinit⟩ := initialize_ok h
    exact hinit.refines
  | depositV0 a args hsigners =>
    obtain ⟨d, hdeposit⟩ := deposit_ok h
    have hsigner := hsigners a.provider (by simp [DepositV0.infos]) hdeposit.signed
    obtain ⟨r, r', hacts⟩ := hdeposit.actsOn hinv hsigner
    exact hacts.refines
  | executeEngineProbeV0 env a args hsigners =>
    obtain ⟨d, after, plan, receipt, hprobed⟩ := execute_ok h
    have hsigner := hsigners a.user (by simp [ExecuteEngineProbeV0.infos]) hprobed.accounts.signed
    have hsource : ¬ IsPda ID d.userSourceA.owner := by
      rw [hprobed.accounts.source.owner]
      exact hsigner
    have hflow : (plan.terms args).flow = ⟨args.amountIn.toNat, 0, args.amountOut.toNat,
        ceilFee args.amountIn.toNat protocolFeeBpsV0.toNat⟩ := by
      rw [SettleTerms.flow, hprobed.executed.fee]
      rfl
    have hrefines := (hprobed.executed.actsOn hinv (.inl hsource)).refines
    rw [hflow] at hrefines
    exact hrefines
  | external action => exact refines_of_action (Exec.mapError_run_ok_iff.mp h)

/-- What a deposit of one asset adds to a market. -/
def deposited (assetIndex : UInt8) (market : Pubkey) : Op → ℕ
  | depositV0 a args _ =>
    if market = a.market.key ∧ args.assetIndex = assetIndex then args.amount.toNat else 0
  | _ => 0

def amountIn (market : Pubkey) : Op → ℕ
  | executeEngineProbeV0 _ a args _ => if market = a.market.key then args.amountIn.toNat else 0
  | _ => 0

def amountOut (market : Pubkey) : Op → ℕ
  | executeEngineProbeV0 _ a args _ => if market = a.market.key then args.amountOut.toNat else 0
  | _ => 0

/-- The exact fee of an execution, `amount_in * 30 / 10000` rounded up. -/
def protocolFee (market : Pubkey) : Op → ℕ
  | executeEngineProbeV0 _ a args _ =>
    if market = a.market.key then ceilFee args.amountIn.toNat protocolFeeBpsV0.toNat else 0
  | _ => 0

private theorem flow_eq (market : Pubkey) (o : Op) : o.flow market =
    ⟨o.deposited assetAIndexV0 market + o.amountIn market, o.deposited assetBIndexV0 market,
      o.amountOut market, o.protocolFee market⟩ := by
  cases o with
  | initializeMarketDomainV0 a args => rfl
  | depositV0 a args hsigners =>
    have hB : assetBIndexV0 ≠ assetAIndexV0 := by decide
    simp only [flow, deposited, amountIn, amountOut, protocolFee, Pi.single_apply,
      DepositV0Args.flow]
    by_cases hkey : market = a.market.key
    · by_cases hA : args.assetIndex = assetAIndexV0
      · simp [hkey, hA, hB.symm]
      · by_cases hi : args.assetIndex = assetBIndexV0
        · simp [hkey, hi, hB]
        · simp [hkey, hA, hi]
          rfl
    · simp [hkey]
      rfl
  | executeEngineProbeV0 env a args hsigners =>
    simp only [flow, deposited, amountIn, amountOut, protocolFee, Pi.single_apply]
    split
    · simp
    · rfl
  | external action => rfl

end Op

/-- The flows of a history, market by market. -/
def totalFlow (history : List Op) : Pubkey → Flow := (history.map Op.flow).sum

/-- Every state a run reaches is accounted for by the operations that took effect. -/
theorem run_accounted {w : Core.World} (h : Genesis config w.ledger) (txs : List (List Op)) :
    Accounted config (run Op.step w txs).1.ledger (totalFlow (run Op.step w txs).2) := by
  refine run_preserves (P := fun (w : Core.World) history =>
    Accounted config w.ledger (totalFlow history)) h.accounted fun w history tx _ o _ w' hacc hstep => ?_
  have hnext := hacc.step (Op.refines hstep hacc.inv)
  simpa [totalFlow] using hnext

end Operations

namespace Sample

open ProgrammableSolana.Core.Sample

def market : SampleMarket where
  marketId := key 92
  market :=
    ⟨[75, 30, 75, 9, 251, 210, 85, 43, 68, 168, 30, 202, 210, 117, 63, 24, 73, 195, 197, 157,
      163, 245, 117, 204, 137, 106, 16, 210, 182, 176, 40, 12], rfl⟩
  domain :=
    ⟨[245, 108, 95, 228, 95, 28, 196, 154, 214, 153, 157, 192, 202, 142, 133, 38, 244, 86, 31,
      47, 106, 95, 132, 224, 89, 208, 109, 18, 180, 215, 4, 100], rfl⟩
  feeLedger :=
    ⟨[62, 205, 239, 125, 187, 117, 204, 9, 141, 175, 167, 22, 225, 213, 100, 166, 236, 216, 140,
      132, 68, 176, 161, 118, 71, 252, 49, 221, 159, 228, 28, 226], rfl⟩
  vaultA :=
    ⟨[156, 211, 222, 77, 197, 29, 31, 82, 68, 237, 208, 83, 128, 143, 91, 208, 137, 99, 56, 155,
      221, 63, 184, 235, 88, 115, 153, 15, 214, 174, 130, 20], rfl⟩
  vaultB :=
    ⟨[242, 114, 208, 132, 139, 165, 103, 53, 252, 43, 143, 249, 17, 118, 154, 71, 107, 19, 46,
      251, 160, 156, 137, 7, 110, 36, 5, 213, 116, 217, 82, 78], rfl⟩
  feeVault :=
    ⟨[91, 186, 214, 54, 238, 61, 60, 211, 210, 76, 230, 164, 136, 100, 231, 7, 23, 38, 121, 16,
      215, 76, 201, 71, 21, 192, 109, 3, 165, 215, 199, 252], rfl⟩

def otherMarket : SampleMarket where
  marketId := key 232
  market :=
    ⟨[130, 231, 237, 204, 139, 8, 35, 146, 89, 83, 169, 205, 196, 168, 215, 177, 232, 4, 166, 95,
      177, 111, 105, 193, 51, 195, 3, 155, 188, 51, 236, 175], rfl⟩
  domain :=
    ⟨[85, 3, 195, 130, 19, 237, 137, 187, 21, 189, 162, 204, 128, 100, 71, 33, 22, 15, 232, 162,
      144, 49, 19, 2, 149, 137, 206, 45, 95, 74, 200, 187], rfl⟩
  feeLedger :=
    ⟨[236, 102, 55, 199, 188, 164, 127, 17, 50, 169, 48, 180, 228, 74, 120, 41, 39, 249, 7, 84,
      6, 41, 251, 54, 33, 21, 151, 76, 1, 58, 0, 168], rfl⟩
  vaultA :=
    ⟨[178, 181, 51, 239, 82, 197, 146, 4, 229, 12, 39, 30, 141, 227, 59, 13, 59, 184, 223, 204,
      12, 130, 126, 37, 205, 117, 248, 121, 246, 233, 89, 158], rfl⟩
  vaultB :=
    ⟨[127, 175, 83, 217, 228, 192, 182, 56, 24, 173, 105, 171, 202, 96, 28, 133, 59, 38, 225, 63,
      8, 143, 204, 234, 168, 194, 58, 50, 183, 38, 250, 172], rfl⟩
  feeVault :=
    ⟨[119, 92, 213, 32, 71, 168, 250, 223, 255, 225, 167, 251, 34, 204, 255, 170, 185, 126, 32,
      43, 255, 75, 41, 24, 95, 69, 109, 210, 241, 227, 210, 57], rfl⟩

def execute (m : SampleMarket) : ExecuteEngineProbeV0 where
  toEnvelope := envelope m
  user := signer user
  instructionsSysvar := readonly instructionsSysvarId
  remainingAccounts := []

def executeArgs : ExecuteEngineProbeV0Args := ⟨10, 5, 11, 5, 1, 100⟩

/-- The accounts of an execution on `market` after a deposit of 1000. -/
def data : EnvelopeData where
  market := newMarket (opening market) (openingArgs market) ⟨255, 255, 255, 255, 255, 255⟩
  domain := { newDomain (opening market) (openingArgs market) ⟨255, 255, 255, 255, 255, 255⟩ with
    accountedB := 1000 }
  feeLedger := newFeeLedger (opening market) ⟨255, 255, 255, 255, 255, 255⟩
  mintA := ⟨none, 0, 6, true, none⟩
  mintB := ⟨none, 0, 6, true, none⟩
  userSourceA := newTokenAccount mintA user
  userDestinationB := newTokenAccount mintB user
  vaultA := newTokenAccount mintA market.domain
  vaultB := newTokenAccount mintB market.domain
  feeVault := newTokenAccount mintA market.feeLedger

def planDigest : Hash :=
  ⟨[103, 45, 8, 158, 59, 15, 158, 7, 72, 178, 0, 125, 222, 64, 41, 29, 181, 39, 251, 254, 173, 6,
    12, 200, 65, 239, 192, 224, 101, 202, 191, 116], rfl⟩

@[reducible]
def crypto : Crypto := .ofKnown
  (digests config market ++ digests config otherMarket ++
    match Wire.Root.encodePlanBinding (planBinding (execute market) data executeArgs 1) with
    | .ok encoded => [(Wire.Root.planDomain ++ encoded, planDigest)]
    | .error _ => []) [user]

attribute [local instance] crypto

/-- An engine that signs off on every plan. -/
def env : Env config where
  slot := 50
  stackHeight := 1
  callee ix _ := some ⟨[], some (ix.programId, Wire.Root.receiptMagic.toList ++
    [Wire.probeWireVersion] ++ (ix.data.drop 9).take 32 ++ (u64LeBytes 1).toList)⟩

def opOpening (m : SampleMarket) : Op := .initializeMarketDomainV0 (opening m) (openingArgs m)

def opDeposit : Op :=
  .depositV0 (depositB market) ⟨assetBIndexV0, 1000⟩ (.of_onCurve (by decide +kernel))

def opExecute : Op :=
  .executeEngineProbeV0 env (execute market) executeArgs (.of_onCurve (by decide +kernel))

def txs : List (List Op) :=
  [[opOpening market], [opOpening otherMarket], [opDeposit, opExecute]]

end Sample

section Solvency

variable [Crypto]

/-- Solvency over whole runs. -/
theorem run_solvent (w : Core.World) (h : Genesis config w.ledger) (txs : List (List Op)) (key : Pubkey)
    (m : MarketV0) (hm : (run Op.step w txs).1.ledger.state? ID key = some (.market m)) :
    ∃ r, r.market = m ∧ MarketOk config (run Op.step w txs).1.ledger key r ∧
      r.domain.accountedA ≤ r.vaultA.amount ∧ r.domain.accountedB ≤ r.vaultB.amount ∧
      r.feeLedger.accountedFeeA ≤ r.feeVault.amount ∧
      validateProtectedTokenAccount r.vaultA r.market.mintA r.domainKey = .ok () ∧
      validateProtectedTokenAccount r.vaultB r.market.mintB r.domainKey = .ok () ∧
      validateProtectedTokenAccount r.feeVault r.market.mintA r.feeLedgerKey = .ok () ∧
      requireRawCoversAccounted r.vaultA.amount r.domain.accountedA = .ok () ∧
      requireRawCoversAccounted r.vaultB.amount r.domain.accountedB = .ok () ∧
      requireRawCoversAccounted r.feeVault.amount r.feeLedger.accountedFeeA = .ok () := by
  obtain ⟨r, hrm, hr, hs, -⟩ := (run_accounted h txs).market hm
  simp only [UInt64.le_iff_toNat_le]
  exact ⟨r, hrm, hr, hs.sideA, hs.sideB, hs.fee, hr.validates hs⟩

private theorem totalFlow_eq (history : List Op) (market : Pubkey) : totalFlow history market =
    ⟨(history.map (Op.deposited assetAIndexV0 market)).sum +
        (history.map (Op.amountIn market)).sum,
      (history.map (Op.deposited assetBIndexV0 market)).sum,
      (history.map (Op.amountOut market)).sum, (history.map (Op.protocolFee market)).sum⟩ := by
  rw [totalFlow, Pi.list_sum_apply, List.map_map, Flow.sum_eq]
  simp only [List.map_map, Function.comp_def, Op.flow_eq, List.sum_map_add]

end Solvency

section Sample

attribute [local instance] Sample.crypto

open Core.Sample

theorem sample_genesis : Genesis config (world genesis).ledger := Genesis.ofList (by decide)

private theorem sample_market : (run Op.step (world genesis) Sample.txs).1.ledger.state? ID
    Sample.market.market = some (.market Sample.data.market) := by
  decide +kernel

theorem run_solvent_sample : ∃ r, r.market = Sample.data.market ∧
    MarketOk config (run Op.step (world genesis) Sample.txs).1.ledger Sample.market.market r ∧
    r.domain.accountedA ≤ r.vaultA.amount ∧ r.domain.accountedB ≤ r.vaultB.amount ∧
    r.feeLedger.accountedFeeA ≤ r.feeVault.amount := by
  obtain ⟨r, hm, hr, hA, hB, hF, -⟩ := run_solvent (world genesis) sample_genesis Sample.txs
    Sample.market.market Sample.data.market sample_market
  exact ⟨r, hm, hr, hA, hB, hF⟩

end Sample

section History

variable [Crypto]

/-- The accounted fields are the exact sums of what took effect on their own market, and no
execution creates or destroys tokens. -/
theorem run_history (w : Core.World) (h : Genesis config w.ledger) (txs : List (List Op))
    (key : Pubkey) (m : MarketV0)
    (hm : (run Op.step w txs).1.ledger.state? ID key = some (.market m)) :
    (∃ r, r.market = m ∧ MarketOk config (run Op.step w txs).1.ledger key r ∧
      r.domain.accountedA.toNat =
        ((run Op.step w txs).2.map (Op.deposited assetAIndexV0 key)).sum +
          ((run Op.step w txs).2.map (Op.amountIn key)).sum ∧
      r.domain.accountedB.toNat + ((run Op.step w txs).2.map (Op.amountOut key)).sum =
        ((run Op.step w txs).2.map (Op.deposited assetBIndexV0 key)).sum ∧
      r.feeLedger.accountedFeeA.toNat = ((run Op.step w txs).2.map (Op.protocolFee key)).sum) ∧
    ∀ env a args hsigners w₁ w₂, (Op.executeEngineProbeV0 env a args hsigners).step w₁ = .ok w₂ →
      ∀ mint, totalBalance w₂.ledger mint = totalBalance w₁.ledger mint := by
  refine ⟨?_, fun env a args hsigners w₁ w₂ hstep => ?_⟩
  · obtain ⟨r, hrm, hr, -, hb⟩ := (run_accounted h txs).market hm
    rw [totalFlow_eq] at hb
    exact ⟨r, hrm, hr, hb.accountedA, hb.accountedB, hb.accountedFee⟩
  · obtain ⟨d, after, plan, receipt, hprobed⟩ := execute_ok (Exec.transact_ok_iff.mp hstep)
    exact hprobed.conserved

end History

section Sample

attribute [local instance] Sample.crypto

open Core.Sample

theorem run_history_sample : ∃ r, r.market = Sample.data.market ∧
    MarketOk config (run Op.step (world genesis) Sample.txs).1.ledger Sample.market.market r ∧
    r.domain.accountedA.toNat = 10 ∧ r.domain.accountedB.toNat + 5 = 1000 ∧
    r.feeLedger.accountedFeeA.toNat = 1 := by
  obtain ⟨⟨r, hm, hr, hA, hB, hF⟩, -⟩ := run_history (world genesis) sample_genesis Sample.txs
    Sample.market.market Sample.data.market sample_market
  have hA' : ((run Op.step (world genesis) Sample.txs).2.map
      (Op.deposited assetAIndexV0 Sample.market.market)).sum +
      ((run Op.step (world genesis) Sample.txs).2.map (Op.amountIn Sample.market.market)).sum = 10 := by
    decide +kernel
  have hB' : ((run Op.step (world genesis) Sample.txs).2.map
      (Op.amountOut Sample.market.market)).sum = 5 := by
    decide +kernel
  have hD' : ((run Op.step (world genesis) Sample.txs).2.map
      (Op.deposited assetBIndexV0 Sample.market.market)).sum = 1000 := by
    decide +kernel
  have hF' : ((run Op.step (world genesis) Sample.txs).2.map
      (Op.protocolFee Sample.market.market)).sum = 1 := by
    decide +kernel
  exact ⟨r, hm, hr, hA.trans hA', by rw [← hB', hB, hD'], hF.trans hF'⟩

end Sample

section Isolation

variable [Crypto]

/-- The deposit names the domain or a vault of the market of `r'` in that role. -/
def DepositSubstitutes (a : DepositV0) (r' : MarketRecord) : Prop :=
  a.domain.key = r'.domainKey ∨ a.domainVault.key ∈ r'.vaultKeys

/-- The execution names an account of the market of `r'` in a role in which the market of `r` has
another. -/
def ExecuteSubstitutes (a : ExecuteEngineProbeV0) (r r' : MarketRecord) : Prop :=
  a.domain.key = r'.domainKey ∨ a.feeLedger.key = r'.feeLedgerKey ∨ a.vaultA.key = r'.vaultAKey ∨
    a.vaultB.key = r'.vaultBKey ∨ a.feeVault.key = r'.feeVaultKey ∨
    (a.engineState.key = r'.market.engineState ∧ r'.market.engineState ≠ r.market.engineState)

/-- A deposit past its checks names the accounts of its own market. -/
theorem deposit_rejects {w : Core.World} {a : DepositV0} {args : DepositV0Args} {r : MarketRecord}
    (hinv : Inv config w.ledger) (hr : MarketOk config w.ledger a.market.key r)
    (hother : a.domain.key ≠ r.domainKey ∨ a.domainVault.key ∉ r.vaultKeys) :
    ∃ e, (handleDepositV0 config a args).run w = (.error e, w) := by
  rw [handleDepositV0, Exec.run_bind_of_ok (Exec.run_get w)]
  cases hload : loadDeposit config w.ledger a with
  | error e => exact ⟨e, Exec.run_bind_of_error (Exec.run_ofExcept _ _)⟩
  | ok d =>
    rw [Exec.run_bind_of_ok (Exec.run_ofExcept _ _)]
    cases hvalid : validateDeposit config a d args with
    | error e => exact ⟨e, Exec.run_bind_of_error (Exec.run_ofExcept _ _)⟩
    | ok accountedAfter =>
      have hbound := (validateDeposit_ok hload hvalid).1
      obtain ⟨r', hr', -, hk, hd⟩ := hbound.record hinv
      obtain rfl := hr'.unique hr
      rcases hother with hdomain | hvault
      · exact absurd hk.symm hdomain
      · exact absurd (hbound.vault_mem hr' hk hd) hvault

/-- An execution past its checks names the accounts of its own market. -/
theorem execute_rejects {env : Env config} {w : Core.World} {a : ExecuteEngineProbeV0}
    {args : ExecuteEngineProbeV0Args} {r : MarketRecord} (hinv : Inv config w.ledger)
    (hr : MarketOk config w.ledger a.market.key r)
    (hother : a.domain.key ≠ r.domainKey ∨ a.feeLedger.key ≠ r.feeLedgerKey ∨
      a.vaultA.key ≠ r.vaultAKey ∨ a.vaultB.key ≠ r.vaultBKey ∨ a.feeVault.key ≠ r.feeVaultKey ∨
      a.engineState.key ≠ r.market.engineState) :
    ∃ e, (handleExecuteEngineProbeV0 env a args).run w = (.error e, w) := by
  rw [handleExecuteEngineProbeV0, Exec.run_bind_of_ok (Exec.run_get w)]
  cases hload : loadExecute w.ledger a with
  | error e => exact ⟨e, Exec.run_bind_of_error (Exec.run_ofExcept _ _)⟩
  | ok d =>
    rw [Exec.run_bind_of_ok (Exec.run_ofExcept _ _)]
    cases hvalid : validateAccounts env w.ledger a d with
    | error e => exact ⟨e, Exec.run_bind_of_error (Exec.run_ofExcept _ _)⟩
    | ok u =>
      have haccounts := validateAccounts_ok hload hvalid
      obtain rfl := (haccounts.bound.marketOk hinv).unique hr
      rcases hother with h | h | h | h | h | h
      · exact absurd rfl h
      · exact absurd rfl h
      · exact absurd rfl h
      · exact absurd rfl h
      · exact absurd rfl h
      · exact absurd haccounts.bound.engineState h

/-- Isolation: in every reachable state, what is done on one market leaves any other one alone,
but for a credit to a vault it names as its output destination; and an account of the other market
in a role of this one is refused before anything is called. -/
theorem run_isolated (w₀ : Core.World) (h : Genesis config w₀.ledger) (txs : List (List Op))
    (w : Core.World) (hw : w = (run Op.step w₀ txs).1) (key key' : Pubkey) (r r' : MarketRecord)
    (hr : MarketOk config w.ledger key r) (hr' : MarketOk config w.ledger key' r')
    (hne : key' ≠ key) :
    (∀ a args hsigners w', a.market.key = key → (Op.depositV0 a args hsigners).step w = .ok w' →
      ∀ k, r'.owns key' k ∨ k ∈ r'.vaultKeys → w'.ledger k = w.ledger k) ∧
    (∀ env a args hsigners w', a.market.key = key →
      (Op.executeEngineProbeV0 env a args hsigners).step w = .ok w' →
      (∀ k, r'.owns key' k → w'.ledger k = w.ledger k) ∧
      (∀ k ∈ r'.vaultKeys, k ≠ a.userDestinationB.key → w'.ledger k = w.ledger k) ∧
      (∀ t, a.userDestinationB.key ∈ r'.vaultKeys →
        w.ledger.token? a.userDestinationB.key = some t →
        ∃ amount, w'.ledger.token? a.userDestinationB.key = some { t with amount } ∧
          amount.toNat = t.amount.toNat + args.amountOut.toNat)) ∧
    (∀ a args, a.market.key = key → DepositSubstitutes a r' →
      ∃ e, (handleDepositV0 config a args).run w = (.error e, w)) ∧
    (∀ env a args, a.market.key = key → ExecuteSubstitutes a r r' →
      ∃ e, (handleExecuteEngineProbeV0 env a args).run w = (.error e, w)) := by
  have hinv : Inv config w.ledger := hw ▸ (run_accounted h txs).inv
  have hvault : ∀ k ∈ r'.vaultKeys, k ∉ r.vaultKeys := fun k hk' hk =>
    hne (hr'.key_of_vault hr hk' hk)
  refine ⟨fun a args hsigners w' hkey hstep k hk => ?_, fun env a args hsigners w' hkey hstep => ?_,
    fun a args hkey hsub => ?_, fun env a args hkey hsub => ?_⟩
  · subst hkey
    obtain ⟨d, hdeposit⟩ := deposit_ok (Exec.transact_ok_iff.mp hstep)
    obtain ⟨r₁, hr₁, -, hk₁, hd₁⟩ := hdeposit.record hinv
    have hsigner := hsigners a.provider (by simp [DepositV0.infos]) hdeposit.signed
    exact hdeposit.frame_other hsigner hr₁ hk₁ hd₁ hr' hne hk
  · subst hkey
    obtain ⟨d, after, plan, receipt, hprobed⟩ := execute_ok (Exec.transact_ok_iff.mp hstep)
    have hexecuted := hprobed.executed
    have hsource : ¬ IsPda ID d.userSourceA.owner := by
      rw [hprobed.accounts.source.owner]
      exact hsigners a.user (by simp [ExecuteEngineProbeV0.infos]) hprobed.accounts.signed
    refine ⟨fun k hk => ?_, fun k hk hdest => ?_, fun t _ ht => ?_⟩
    · obtain ⟨s, hs⟩ := hr'.state_of_owns hk
      exact hexecuted.frame_other hinv (.inl hsource) hr' hne (.inl hk)
        (Ledger.state?_ne_token? hs hexecuted.bound.userDestinationB)
    · exact hexecuted.frame_other hinv (.inl hsource) hr' hne (.inr hk) hdest
    · obtain ⟨L₁, L₂, hsettled⟩ := hexecuted.settled
      obtain rfl : d.userDestinationB = t :=
        Option.some.inj (hexecuted.bound.userDestinationB.symm.trans ht)
      exact ⟨_, hsettled.destinationCredit.rest ▸ hexecuted.tokens.userDestinationB,
        hsettled.destinationCredit.amount⟩
  · subst hkey
    refine deposit_rejects hinv hr ?_
    rcases hsub with hdomain | hv
    · exact .inl fun heq => hne (hr'.key_of_domain hr (hdomain.symm.trans heq))
    · exact .inr (hvault _ hv)
  · subst hkey
    refine execute_rejects hinv hr ?_
    rcases hsub with hs | hs | hs | hs | hs | ⟨hs, hdiffers⟩
    · exact .inl fun heq => hne (hr'.key_of_domain hr (hs.symm.trans heq))
    · exact .inr (.inl fun heq => hne (hr'.key_of_feeLedger hr (hs.symm.trans heq)))
    · refine .inr (.inr (.inl fun heq => hvault r'.vaultAKey (by simp [MarketRecord.vaultKeys]) ?_))
      simp [MarketRecord.vaultKeys, ← hs, heq]
    · refine .inr (.inr (.inr (.inl fun heq =>
        hvault r'.vaultBKey (by simp [MarketRecord.vaultKeys]) ?_)))
      simp [MarketRecord.vaultKeys, ← hs, heq]
    · refine .inr (.inr (.inr (.inr (.inl fun heq =>
        hvault r'.feeVaultKey (by simp [MarketRecord.vaultKeys]) ?_))))
      simp [MarketRecord.vaultKeys, ← hs, heq]
    · exact .inr (.inr (.inr (.inr (.inr fun heq => hdiffers (hs.symm.trans heq)))))

end Isolation

section Sample

attribute [local instance] Sample.crypto

open Core.Sample

/-- Both markets open, and liquidity in the first. -/
def Sample.fundingTxs : List (List Op) :=
  [[Sample.opOpening Sample.market], [Sample.opOpening Sample.otherMarket], [Sample.opDeposit]]

def Sample.funded : Core.World := (run Op.step (world genesis) Sample.fundingTxs).1

theorem Sample.funded_eq : Sample.funded = (run Op.step (world genesis) Sample.fundingTxs).1 := by
  rw [Sample.funded]

theorem run_isolated_sample : ∃ r',
    MarketOk config Sample.funded.ledger Sample.otherMarket.market r' ∧
    (∀ k, r'.owns Sample.otherMarket.market k ∨ k ∈ r'.vaultKeys →
      (Sample.opDeposit.handle.run Sample.funded).2.ledger k = Sample.funded.ledger k) ∧
    (∀ k, r'.owns Sample.otherMarket.market k →
      (Sample.opExecute.handle.run Sample.funded).2.ledger k = Sample.funded.ledger k) ∧
    ∃ e, (handleDepositV0 config { depositB Sample.market with domain := writable r'.domainKey }
      ⟨assetBIndexV0, 1000⟩).run Sample.funded = (.error e, Sample.funded) := by
  have hinv : Inv config Sample.funded.ledger := by
    rw [Sample.funded_eq]
    exact (run_accounted sample_genesis Sample.fundingTxs).inv
  obtain ⟨r, hr, -⟩ := hinv.market (k := Sample.market.market) (m := Sample.data.market)
    (by decide +kernel)
  obtain ⟨r', hr', -⟩ := hinv.market (k := Sample.otherMarket.market)
    (m := newMarket (opening Sample.otherMarket) (openingArgs Sample.otherMarket)
      ⟨255, 255, 255, 255, 255, 255⟩) (by decide +kernel)
  obtain ⟨hdeposit, hexecute, hrefused, -⟩ := run_isolated (world genesis) sample_genesis
    Sample.fundingTxs Sample.funded Sample.funded_eq Sample.market.market Sample.otherMarket.market
    r r' hr hr' (by decide +kernel)
  have hdep : Sample.opDeposit.step Sample.funded =
      .ok (Sample.opDeposit.handle.run Sample.funded).2 := Exec.transact_of_ok (by decide +kernel)
  have hexec : Sample.opExecute.step Sample.funded =
      .ok (Sample.opExecute.handle.run Sample.funded).2 := Exec.transact_of_ok (by decide +kernel)
  exact ⟨r', hr', hdeposit _ _ _ _ rfl hdep, (hexecute _ _ _ _ _ rfl hexec).1,
    hrefused _ _ rfl (.inl rfl)⟩

end Sample

end ProgrammableSolana.Root
