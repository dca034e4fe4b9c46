import ProgrammableSolana.Core.DepositEffect
import ProgrammableSolana.Core.InitializeEffect
import ProgrammableSolana.Core.Math
import ProgrammableSolana.Lib.Transactions
import Mathlib.Algebra.BigOperators.Pi

/-! Runs of a Core from a ledger that holds nothing of its own. -/
namespace ProgrammableSolana.Core

open ProgrammableSolana.Lib ProgrammableSolana.Solana ProgrammableSolana.Lib.Custody

/-- No account belongs to the Core yet. -/
def Genesis (cfg : Config) (L : Ledger) : Prop := ∀ k, (L k).owner ≠ cfg.ID

theorem Genesis.ofList {cfg : Config} {accounts : List (Pubkey × Account CoreState)}
    (h : ∀ p ∈ accounts, p.2.owner ≠ cfg.ID) : Genesis cfg (.ofList accounts) := by
  intro k
  unfold Ledger.ofList
  cases hk : accounts.lookup k with
  | none => exact cfg.ID_ne_system.symm
  | some account =>
    obtain ⟨l, l', rfl, -⟩ := List.lookup_eq_some_iff.mp hk
    exact h (k, account) (by simp)

namespace CoreEvent

/-- The market, the input and the output of an execution. -/
def settled? : CoreEvent → Option (Pubkey × UInt64 × UInt64)
  | engineProbeExecuted e => some (e.market, e.amountIn, e.amountOut)
  | engineGeneratedProbeExecuted e => some (e.market, e.amountIn, e.amountOut)
  | callbackAuthenticatedProbeExecuted e => some (e.market, e.amountIn, e.amountOut)
  | _ => none

/-- What a deposit of one asset added to a market. -/
def deposited (assetIndex : UInt8) (market : Pubkey) : CoreEvent → ℕ
  | liquidityDeposited e =>
    if market = e.market ∧ e.assetIndex = assetIndex then e.amount.toNat else 0
  | _ => 0

def amountIn (market : Pubkey) (e : CoreEvent) : ℕ :=
  match e.settled? with
  | some (key, amountIn, _) => if market = key then amountIn.toNat else 0
  | none => 0

def amountOut (market : Pubkey) (e : CoreEvent) : ℕ :=
  match e.settled? with
  | some (key, _, amountOut) => if market = key then amountOut.toNat else 0
  | none => 0

/-- The exact fee of an execution, `amount_in * 30 / 10000` rounded up. -/
def protocolFee (market : Pubkey) (e : CoreEvent) : ℕ :=
  match e.settled? with
  | some (key, amountIn, _) =>
    if market = key then ceilFee amountIn.toNat protocolFeeBpsV0.toNat else 0
  | none => 0

/-- What an event means for the books. -/
def flow (e : CoreEvent) (market : Pubkey) : Flow :=
  ⟨e.deposited assetAIndexV0 market + e.amountIn market, e.deposited assetBIndexV0 market,
    e.amountOut market, e.protocolFee market⟩

theorem flow_initialized (e : MarketDomainInitializedV0) : flow (.marketDomainInitialized e) = 0 :=
  rfl

theorem flow_authorized (e : SpendAuthorizedV0) : flow (.spendAuthorized e) = 0 := rfl

theorem flow_deposited {e : LiquidityDepositedV0} {args : DepositV0Args}
    (hi : e.assetIndex = args.assetIndex) (ha : e.amount = args.amount) :
    flow (.liquidityDeposited e) = Pi.single e.market args.flow := by
  have hB : assetBIndexV0 ≠ assetAIndexV0 := by decide
  funext market
  simp only [flow, deposited, amountIn, amountOut, protocolFee, settled?, Pi.single_apply,
    DepositV0Args.flow, hi, ha]
  by_cases hkey : market = e.market
  · by_cases hA : args.assetIndex = assetAIndexV0
    · simp [hkey, hA, hB.symm]
    · by_cases hi : args.assetIndex = assetBIndexV0
      · simp [hkey, hi, hB]
      · simp [hkey, hA, hi]
        rfl
  · simp [hkey]
    rfl

theorem flow_settled {e : CoreEvent} {market : Pubkey} {amountIn amountOut : UInt64}
    (h : e.settled? = some (market, amountIn, amountOut)) : e.flow = Pi.single market
      ⟨amountIn.toNat, 0, amountOut.toNat, ceilFee amountIn.toNat protocolFeeBpsV0.toNat⟩ := by
  have hd : ∀ i key, e.deposited i key = 0 := by
    intro i key
    cases e <;> first | rfl | cases h
  funext key
  simp only [flow, CoreEvent.amountIn, CoreEvent.amountOut, protocolFee, h, hd, Pi.single_apply]
  split
  · simp
  · rfl

end CoreEvent

/-- The flows of a history of events, market by market. -/
def eventFlow (events : List CoreEvent) : Pubkey → Flow := (events.map CoreEvent.flow).sum

@[simp] theorem eventFlow_nil : eventFlow [] = 0 := rfl

@[simp] theorem eventFlow_singleton (e : CoreEvent) : eventFlow [e] = e.flow := by
  simp [eventFlow]

private theorem eventFlow_append (es es' : List CoreEvent) :
    eventFlow (es ++ es') = eventFlow es + eventFlow es' := by
  simp [eventFlow]

theorem eventFlow_eq (events : List CoreEvent) (market : Pubkey) : eventFlow events market =
    ⟨(events.map (CoreEvent.deposited assetAIndexV0 market)).sum +
        (events.map (CoreEvent.amountIn market)).sum,
      (events.map (CoreEvent.deposited assetBIndexV0 market)).sum,
      (events.map (CoreEvent.amountOut market)).sum,
      (events.map (CoreEvent.protocolFee market)).sum⟩ := by
  rw [eventFlow, Pi.list_sum_apply, List.map_map, Flow.sum_eq]
  simp only [List.map_map, Function.comp_def, CoreEvent.flow, List.sum_map_add]

section Sample

/-- The addresses of a market's accounts, worked out beforehand. -/
structure SampleMarket where
  marketId : Hash
  market : Pubkey
  domain : Pubkey
  feeLedger : Pubkey
  vaultA : Pubkey
  vaultB : Pubkey
  feeVault : Pubkey

namespace Sample

def key (n : UInt8) : Pubkey := ⟨List.replicate 32 n, List.length_replicate⟩

/-- The one user: a point of the curve. -/
def user : Pubkey := key 1

def mintA : Pubkey := key 2

def mintB : Pubkey := key 4

def engineProgram : Pubkey := key 5

def engineState : Pubkey := key 7

def sourceA : Pubkey := key 8

def sourceB : Pubkey := key 13

def destinationB : Pubkey := key 14

def loader : Pubkey := key 15

def readonly (key : Pubkey) : AccountInfo := ⟨key, false, false⟩

def writable (key : Pubkey) : AccountInfo := ⟨key, false, true⟩

def signer (key : Pubkey) : AccountInfo := ⟨key, true, true⟩

def mintAccount : Account CoreState :=
  ⟨tokenProgram, false, .mint ⟨none, 0, 6, true, none⟩⟩

def tokenAccount (mint : Pubkey) (amount : UInt64) : Account CoreState :=
  ⟨tokenProgram, false, .token ⟨mint, user, amount, none, .initialized, none, 0, none⟩⟩

def program : Account CoreState := ⟨loader, true, .raw []⟩

/-- Two mints, three token accounts of the user, an engine and the programs. -/
def genesis : Ledger := .ofList [
  (mintA, mintAccount), (mintB, mintAccount), (sourceA, tokenAccount mintA 1000000),
  (sourceB, tokenAccount mintB 1000000), (destinationB, tokenAccount mintB 0),
  (engineProgram, program), (engineState, ⟨engineProgram, false, .raw [0]⟩),
  (tokenProgram, program), (systemProgram, program)]

def world (L : Ledger) : World := ⟨L, none, []⟩

def opening (m : SampleMarket) : InitializeMarketDomainV0 where
  initializer := signer user
  market := writable m.market
  domain := writable m.domain
  feeLedger := writable m.feeLedger
  mintA := readonly mintA
  mintB := readonly mintB
  vaultA := writable m.vaultA
  vaultB := writable m.vaultB
  feeVault := writable m.feeVault
  engineProgram := readonly engineProgram
  engineState := readonly engineState
  tokenProgram := readonly tokenProgram
  systemProgram := readonly systemProgram
  remainingAccounts := []

def openingArgs (m : SampleMarket) : InitializeMarketDomainV0Args := ⟨m.marketId, 1⟩

def depositB (m : SampleMarket) : DepositV0 where
  provider := signer user
  market := readonly m.market
  domain := writable m.domain
  mint := readonly mintB
  providerSource := writable sourceB
  domainVault := writable m.vaultB
  tokenProgram := readonly tokenProgram
  remainingAccounts := []

/-- The accounts of an execution, as the three Cores share them. -/
def envelope (m : SampleMarket) : Envelope where
  market := readonly m.market
  domain := writable m.domain
  feeLedger := writable m.feeLedger
  mintA := readonly mintA
  mintB := readonly mintB
  userSourceA := writable sourceA
  userDestinationB := writable destinationB
  vaultA := writable m.vaultA
  vaultB := writable m.vaultB
  feeVault := writable m.feeVault
  engineProgram := readonly engineProgram
  engineState := writable engineState
  tokenProgram := readonly tokenProgram

/-- The digests that lead to the addresses of a market, each with bump 255. -/
def digests (cfg : Config) (m : SampleMarket) : List (List UInt8 × Hash) :=
  let derived (seeds : List (List UInt8)) : List UInt8 :=
    (seeds ++ [[255], cfg.ID.toList, pdaMarker]).flatten
  [(derived [cfg.marketSeedV0, user.toList, m.marketId.toList], m.market),
    (derived [cfg.domainSeedV0, m.market.toList], m.domain),
    (derived [cfg.feeLedgerSeedV0, m.market.toList, mintA.toList], m.feeLedger),
    (derived [cfg.vaultSeedV0, m.domain.toList, [assetAIndexV0]], m.vaultA),
    (derived [cfg.vaultSeedV0, m.domain.toList, [assetBIndexV0]], m.vaultB),
    (derived [cfg.feeVaultSeedV0, m.feeLedger.toList], m.feeVault)]

end Sample

end Sample

variable [Crypto]

/-- No signature the instruction carries is by an address of `programId`; only `programId` itself
could have signed for one. -/
def SignedOutside (programId : Pubkey) (infos : List AccountInfo) : Prop :=
  ∀ info ∈ infos, info.isSigner = true → ¬ IsPda programId info.key

theorem SignedOutside.of_onCurve {programId : Pubkey} {infos : List AccountInfo}
    (h : ∀ info ∈ infos, info.isSigner = true → Crypto.onCurve info.key = true) :
    SignedOutside programId infos := fun info hinfo hsigner hpda => by
  simpa [offCurve_of_isPda hpda] using h info hinfo hsigner

variable {cfg : Config}

theorem Genesis.inv {L : Ledger} (h : Genesis cfg L) : Inv cfg L := fun k _ hk =>
  absurd (Ledger.state?_eq_some.mp hk).1 (h k)

theorem Genesis.bookOf {L : Ledger} (h : Genesis cfg L) : bookOf cfg L = fun _ => none :=
  funext fun key => bookOf_eq_none.mpr fun _ hr => h key (Ledger.state?_eq_some.mp hr.market).1

/-- Invariant and history together: the books are complete, covered, and equal to the flows. -/
structure Accounted (cfg : Config) (L : Ledger) (total : Pubkey → Flow) : Prop where
  inv : Inv cfg L
  consistent : Consistent (bookOf cfg L) total

theorem Genesis.accounted {L : Ledger} (h : Genesis cfg L) : Accounted cfg L 0 :=
  ⟨h.inv, h.bookOf ▸ consistent_empty⟩

theorem Accounted.step {L L' : Ledger} {total flow : Pubkey → Flow} (h : Accounted cfg L total)
    (hstep : Refines cfg L flow L') : Accounted cfg L' (total + flow) :=
  ⟨hstep.inv h.inv, (hstep.step h.inv).consistent h.consistent⟩

/-- The ledger is accounted for by the events of the log. -/
def Booked (cfg : Config) (w : World) : Prop :=
  Accounted cfg w.ledger (eventFlow (emittedEvents w.log))

theorem Genesis.booked {w : World} (h : Genesis cfg w.ledger) (hlog : w.log = []) :
    Booked cfg w := by
  unfold Booked
  rw [hlog]
  exact h.accounted

theorem Booked.step {w w' : World} {es : List CoreEvent} (h : Booked cfg w)
    (hemitted : emittedEvents w'.log = emittedEvents w.log ++ es)
    (hstep : Refines cfg w.ledger (eventFlow es) w'.ledger) : Booked cfg w' := by
  unfold Booked
  rw [hemitted, eventFlow_append]
  exact Accounted.step h hstep

theorem Booked.idle {w w' : World} (h : Booked cfg w)
    (hemitted : emittedEvents w'.log = emittedEvents w.log)
    (hstep : Refines cfg w.ledger 0 w'.ledger) : Booked cfg w' := by
  have hnone : emittedEvents w'.log = emittedEvents w.log ++ [] := by simpa using hemitted
  exact h.step hnone hstep

theorem Accounted.market {L : Ledger} {total : Pubkey → Flow} (h : Accounted cfg L total)
    {key : Pubkey} {m : MarketV0} (hm : L.state? cfg.ID key = some (.market m)) :
    ∃ r, r.market = m ∧ MarketOk cfg L key r ∧ r.book.Solvent ∧ Balanced (total key) r.book := by
  obtain ⟨r, hr, hrm⟩ := h.inv.market hm
  have hc := h.consistent key
  rw [bookOf_eq_some.mpr ⟨r, hr, rfl⟩] at hc
  exact ⟨r, hrm, hr, hc⟩

/-- What a market of a booked ledger comes to: its vaults cover its accounts and nobody else can draw
on them, and the accounts are the sums of what the log has for the market. -/
theorem Booked.market {w : World} (h : Booked cfg w) {key : Pubkey} {m : MarketV0}
    (hm : w.ledger.state? cfg.ID key = some (.market m)) :
    ∃ r, r.market = m ∧ MarketOk cfg w.ledger key r ∧
      r.domain.accountedA ≤ r.vaultA.amount ∧ r.domain.accountedB ≤ r.vaultB.amount ∧
      r.feeLedger.accountedFeeA ≤ r.feeVault.amount ∧
      (∀ v ∈ [r.vaultA, r.vaultB, r.feeVault], v.delegate = none ∧ v.closeAuthority = none) ∧
      r.domain.accountedA.toNat =
        ((emittedEvents w.log).map (CoreEvent.deposited assetAIndexV0 key)).sum +
        ((emittedEvents w.log).map (CoreEvent.amountIn key)).sum ∧
      r.domain.accountedB.toNat + ((emittedEvents w.log).map (CoreEvent.amountOut key)).sum =
        ((emittedEvents w.log).map (CoreEvent.deposited assetBIndexV0 key)).sum ∧
      r.feeLedger.accountedFeeA.toNat =
        ((emittedEvents w.log).map (CoreEvent.protocolFee key)).sum := by
  obtain ⟨r, hrm, hr, hs, hb⟩ := Accounted.market h hm
  rw [eventFlow_eq] at hb
  have hvaults : ∀ v ∈ [r.vaultA, r.vaultB, r.feeVault],
      v.delegate = none ∧ v.closeAuthority = none := by
    simp only [List.mem_cons, List.not_mem_nil, or_false, forall_eq_or_imp, forall_eq]
    exact ⟨⟨hr.profileA.delegate, hr.profileA.closeAuthority⟩,
      ⟨hr.profileB.delegate, hr.profileB.closeAuthority⟩,
      hr.profileFee.delegate, hr.profileFee.closeAuthority⟩
  have hA : r.domain.accountedA ≤ r.vaultA.amount := UInt64.le_iff_toNat_le.mpr hs.sideA
  have hB : r.domain.accountedB ≤ r.vaultB.amount := UInt64.le_iff_toNat_le.mpr hs.sideB
  have hF : r.feeLedger.accountedFeeA ≤ r.feeVault.amount := UInt64.le_iff_toNat_le.mpr hs.fee
  exact ⟨r, hrm, hr, hA, hB, hF, hvaults, hb.accountedA, hb.accountedB, hb.accountedFee⟩

/-- The validations the handlers repeat never fail on the vaults of a solvent market. -/
theorem MarketOk.validates {L : Ledger} {key : Pubkey} {r : MarketRecord} (h : MarketOk cfg L key r)
    (hs : r.book.Solvent) :
    validateProtectedTokenAccount r.vaultA r.market.mintA r.domainKey = .ok () ∧
      validateProtectedTokenAccount r.vaultB r.market.mintB r.domainKey = .ok () ∧
      validateProtectedTokenAccount r.feeVault r.market.mintA r.feeLedgerKey = .ok () ∧
      requireRawCoversAccounted r.vaultA.amount r.domain.accountedA = .ok () ∧
      requireRawCoversAccounted r.vaultB.amount r.domain.accountedB = .ok () ∧
      requireRawCoversAccounted r.feeVault.amount r.feeLedger.accountedFeeA = .ok () := by
  simp only [validateProtectedTokenAccount_ok_iff, requireRawCoversAccounted, require_ok_iff,
    UInt64.le_iff_toNat_le]
  exact ⟨h.profileA, h.profileB, h.profileFee, hs.sideA, hs.sideB, hs.fee⟩

end ProgrammableSolana.Core
