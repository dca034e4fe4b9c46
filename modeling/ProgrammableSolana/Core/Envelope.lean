import ProgrammableSolana.Core.Load
import ProgrammableSolana.Lib.Codec
import ProgrammableSolana.Solana.Confinement

/-! The accounts every execute instruction has in common, and the checks the three Cores make
on them in the same words. -/
namespace ProgrammableSolana.Core

open ProgrammableSolana.Lib ProgrammableSolana.Solana

structure Envelope where
  market : AccountInfo
  domain : AccountInfo
  feeLedger : AccountInfo
  mintA : AccountInfo
  mintB : AccountInfo
  userSourceA : AccountInfo
  userDestinationB : AccountInfo
  vaultA : AccountInfo
  vaultB : AccountInfo
  feeVault : AccountInfo
  engineProgram : AccountInfo
  engineState : AccountInfo
  tokenProgram : AccountInfo

/-- The typed accounts of an envelope. The handler works on these copies; only `reload`
refreshes one. -/
structure EnvelopeData where
  market : MarketV0
  domain : DomainV0
  feeLedger : FeeLedgerV0
  mintA : Mint
  mintB : Mint
  userSourceA : TokenAccount
  userDestinationB : TokenAccount
  vaultA : TokenAccount
  vaultB : TokenAccount
  feeVault : TokenAccount

/-- A wire function called from a handler: the handler names the error of a rejection. -/
def liftWire {ε α : Type} (rejected : Error) (x : Except (Fault ε) α) : Result α :=
  x.mapError fun
    | .codec _ => rejected
    | .outOfBounds => .panic

@[simp] theorem liftWire_ok_iff {ε α : Type} {rejected : Error} {x : Except (Fault ε) α} {a : α} :
    liftWire rejected x = .ok a ↔ x = .ok a :=
  mapError_ok_iff

/-- What an execution sees besides its accounts and arguments: the clock, its depth in the call
stack and the programs it calls into. -/
structure Env [Crypto] (cfg : Config) where
  slot : UInt64
  stackHeight : ℕ
  callee : Callee CoreState cfg.ID

def transactionLevelStackHeight : ℕ := 1

section

variable [Crypto] (cfg : Config)

def loadEnvelope (L : Ledger) (e : Envelope) : Result EnvelopeData := do
  let market ← loadMarket L cfg.ID e.market.key
  let domain ← loadDomain L cfg.ID e.domain.key
  let feeLedger ← loadFeeLedger L cfg.ID e.feeLedger.key
  let mintA ← loadMintAccount L e.mintA.key
  let mintB ← loadMintAccount L e.mintB.key
  let userSourceA ← loadTokenAccount L e.userSourceA.key
  let userDestinationB ← loadTokenAccount L e.userDestinationB.key
  let vaultA ← loadTokenAccount L e.vaultA.key
  let vaultB ← loadTokenAccount L e.vaultB.key
  let feeVault ← loadTokenAccount L e.feeVault.key
  loadTokenProgram L e.tokenProgram
  return { market, domain, feeLedger, mintA, mintB, userSourceA, userDestinationB, vaultA, vaultB,
           feeVault }

/-- `token::authority` of the user source, where an instruction has it. -/
def constrainSourceAuthority (source : TokenAccount) : Option Pubkey → Result Unit
  | some user => constraintTokenAuthority source user
  | none => .ok ()

/-- The constraints of the shared accounts, in the order of the accounts struct. -/
def constrainEnvelope (L : Ledger) (e : Envelope) (d : EnvelopeData) (sourceAuthority : Option Pubkey) :
    Result Unit := do
  constraintSeeds cfg e.market.key
    [cfg.marketSeedV0, d.market.initializer.toList, d.market.marketId.toList, [d.market.bump]]
  constraintMut e.domain
  constraintSeeds cfg e.domain.key [cfg.domainSeedV0, e.market.key.toList, [d.domain.bump]]
  constraintMut e.feeLedger
  constraintSeeds cfg e.feeLedger.key
    [cfg.feeLedgerSeedV0, e.market.key.toList, e.mintA.key.toList, [d.feeLedger.bump]]
  constraintAddress e.mintA.key d.market.mintA (.core .invalidTokenMint)
  constraintAddress e.mintB.key d.market.mintB (.core .invalidTokenMint)
  constraintMut e.userSourceA
  constraintTokenMint d.userSourceA e.mintA.key
  constrainSourceAuthority d.userSourceA sourceAuthority
  constraintMut e.userDestinationB
  constraintTokenMint d.userDestinationB e.mintB.key
  constraintMut e.vaultA
  constraintSeeds cfg e.vaultA.key
    [cfg.vaultSeedV0, e.domain.key.toList, [assetAIndexV0], [d.domain.vaultABump]]
  constraintTokenMint d.vaultA e.mintA.key
  constraintTokenAuthority d.vaultA e.domain.key
  constraintMut e.vaultB
  constraintSeeds cfg e.vaultB.key
    [cfg.vaultSeedV0, e.domain.key.toList, [assetBIndexV0], [d.domain.vaultBBump]]
  constraintTokenMint d.vaultB e.mintB.key
  constraintTokenAuthority d.vaultB e.domain.key
  constraintMut e.feeVault
  constraintSeeds cfg e.feeVault.key
    [cfg.feeVaultSeedV0, e.feeLedger.key.toList, [d.feeLedger.feeVaultBump]]
  constraintTokenMint d.feeVault e.mintA.key
  constraintTokenAuthority d.feeVault e.feeLedger.key
  constraintAddress e.engineProgram.key d.market.engineProgram (.core .invalidEngineProgram)
  constraintMut e.engineState
  constraintAddress e.engineState.key d.market.engineState (.core .invalidEngineState)
  require ((L e.engineState.key).owner = d.market.engineProgram) (.core .invalidEngineStateOwner)

/-- The canonical addresses and the engine binding, checked again by each handler. -/
def bindEnvelope (L : Ledger) (e : Envelope) (d : EnvelopeData) : Result Unit := do
  validateMarketDomain cfg e.market.key d.market e.domain.key d.domain
  validateFeeLedger cfg e.market.key d.market e.feeLedger.key d.feeLedger
  let vaultA ← canonicalDomainVault cfg e.domain.key assetAIndexV0 d.domain.vaultABump
  require (vaultA = e.vaultA.key) (.core .invalidDomainVault)
  let vaultB ← canonicalDomainVault cfg e.domain.key assetBIndexV0 d.domain.vaultBBump
  require (vaultB = e.vaultB.key) (.core .invalidDomainVault)
  let feeVault ← canonicalFeeVault cfg e.feeLedger.key d.feeLedger.feeVaultBump
  require (feeVault = e.feeVault.key) (.core .invalidFeeVault)
  require ((L e.engineProgram.key).executable = true) (.core .engineProgramNotExecutable)
  require (e.engineProgram.key ≠ cfg.ID) (.core .coreCannotBeEngine)
  require ((L e.engineState.key).executable = false) (.core .engineStateExecutable)
  require ((L e.engineState.key).owner = e.engineProgram.key) (.core .invalidEngineStateOwner)

/-- The profile of the user source, where the user signs for it. -/
def profileSource (source : TokenAccount) (mint : Pubkey) : Option Pubkey → Result Unit
  | some user => validateProtectedTokenAccount source mint user
  | none => .ok ()

/-- The token profile of the shared accounts and the three raw-balance checks. -/
def profileEnvelope (e : Envelope) (d : EnvelopeData) (sourceAuthority : Option Pubkey) :
    Result Unit := do
  validateClassicMint e.mintA.key d.mintA
  validateClassicMint e.mintB.key d.mintB
  profileSource d.userSourceA e.mintA.key sourceAuthority
  validateCreditDestination d.userDestinationB e.mintB.key
  validateProtectedTokenAccount d.vaultA e.mintA.key e.domain.key
  validateProtectedTokenAccount d.vaultB e.mintB.key e.domain.key
  validateProtectedTokenAccount d.feeVault e.mintA.key e.feeLedger.key
  requireRawCoversAccounted d.vaultA.amount d.domain.accountedA
  requireRawCoversAccounted d.vaultB.amount d.domain.accountedB
  requireRawCoversAccounted d.feeVault.amount d.feeLedger.accountedFeeA

/-- The return data of the engine call, when the engine program itself set it. -/
def takeReceipt (e : Envelope) (returned : Option (Pubkey × List UInt8)) : Result (List UInt8) := do
  let (setter, data) ← okOr returned (.core .missingEngineReceipt)
  require (setter = e.engineProgram.key) (.core .invalidEngineReceiptSetter)
  return data

/-- What loading, constraining and binding establish. -/
structure Bound (L : Ledger) (e : Envelope) (d : EnvelopeData) : Prop where
  market : L.state? cfg.ID e.market.key = some (.market d.market)
  domain : L.state? cfg.ID e.domain.key = some (.domain d.domain)
  feeLedger : L.state? cfg.ID e.feeLedger.key = some (.feeLedger d.feeLedger)
  mintA : L.mint? e.mintA.key = some d.mintA
  mintB : L.mint? e.mintB.key = some d.mintB
  userSourceA : L.token? e.userSourceA.key = some d.userSourceA
  userDestinationB : L.token? e.userDestinationB.key = some d.userDestinationB
  vaultA : L.token? e.vaultA.key = some d.vaultA
  vaultB : L.token? e.vaultB.key = some d.vaultB
  feeVault : L.token? e.feeVault.key = some d.feeVault
  mintAKey : e.mintA.key = d.market.mintA
  mintBKey : e.mintB.key = d.market.mintB
  tokenProgramKey : e.tokenProgram.key = tokenProgram
  feeBps : d.market.feeBps = protocolFeeBpsV0
  domainMarket : d.domain.market = e.market.key
  domainAddress : createProgramAddress [cfg.domainSeedV0, e.market.key.toList, [d.domain.bump]]
    cfg.ID = some e.domain.key
  feeLedgerMarket : d.feeLedger.market = e.market.key
  vaultAAddress : createProgramAddress
    [cfg.vaultSeedV0, e.domain.key.toList, [assetAIndexV0], [d.domain.vaultABump]] cfg.ID =
      some e.vaultA.key
  vaultBAddress : createProgramAddress
    [cfg.vaultSeedV0, e.domain.key.toList, [assetBIndexV0], [d.domain.vaultBBump]] cfg.ID =
      some e.vaultB.key
  feeVaultAddress : createProgramAddress
    [cfg.feeVaultSeedV0, e.feeLedger.key.toList, [d.feeLedger.feeVaultBump]] cfg.ID =
      some e.feeVault.key
  engineProgram : e.engineProgram.key = d.market.engineProgram
  engineState : e.engineState.key = d.market.engineState
  engineStateOwner : (L e.engineState.key).owner = e.engineProgram.key
  engineNotCore : e.engineProgram.key ≠ cfg.ID

/-- What the token profile establishes. -/
structure Profiled (e : Envelope) (d : EnvelopeData) : Prop where
  freezeA : d.mintA.freezeAuthority = none
  freezeB : d.mintB.freezeAuthority = none
  destinationMint : d.userDestinationB.mint = e.mintB.key
  vaultA : ProtectedProfile d.vaultA e.mintA.key e.domain.key
  vaultB : ProtectedProfile d.vaultB e.mintB.key e.domain.key
  feeVault : ProtectedProfile d.feeVault e.mintA.key e.feeLedger.key
  coversA : d.domain.accountedA ≤ d.vaultA.amount
  coversB : d.domain.accountedB ≤ d.vaultB.amount
  coversFee : d.feeLedger.accountedFeeA ≤ d.feeVault.amount

variable {cfg}

omit [Crypto] in
theorem takeReceipt_ok {e : Envelope} {returned : Option (Pubkey × List UInt8)} {data : List UInt8}
    (h : takeReceipt e returned = .ok data) : returned = some (e.engineProgram.key, data) := by
  simp only [takeReceipt, except_bind_ok_iff, okOr_ok_iff, require_ok_iff, except_pure_ok_iff,
    Prod.exists] at h
  obtain ⟨setter, data', hret, _, rfl, rfl⟩ := h
  exact hret

omit [Crypto] in
theorem loadEnvelope_ok {L : Ledger} {e : Envelope} {d : EnvelopeData}
    (h : loadEnvelope cfg L e = .ok d) :
    L.state? cfg.ID e.market.key = some (.market d.market) ∧
      L.state? cfg.ID e.domain.key = some (.domain d.domain) ∧
      L.state? cfg.ID e.feeLedger.key = some (.feeLedger d.feeLedger) ∧
      L.mint? e.mintA.key = some d.mintA ∧ L.mint? e.mintB.key = some d.mintB ∧
      L.token? e.userSourceA.key = some d.userSourceA ∧
      L.token? e.userDestinationB.key = some d.userDestinationB ∧
      L.token? e.vaultA.key = some d.vaultA ∧ L.token? e.vaultB.key = some d.vaultB ∧
      L.token? e.feeVault.key = some d.feeVault ∧ e.tokenProgram.key = tokenProgram := by
  simp only [loadEnvelope, except_bind_ok_iff, loadMarket_ok_iff cfg.ID_ne_system,
    loadDomain_ok_iff cfg.ID_ne_system, loadFeeLedger_ok_iff cfg.ID_ne_system, loadMintAccount_ok_iff,
    loadTokenAccount_ok_iff, loadTokenProgram, require_ok_iff, except_pure_ok_iff] at h
  obtain ⟨_, hm, _, hd, _, hf, _, hma, _, hmb, _, hs, _, ht, _, hva, _, hvb, _, hfv, _, ⟨_, htp, -⟩,
    rfl⟩ := h
  exact ⟨hm, hd, hf, hma, hmb, hs, ht, hva, hvb, hfv, htp⟩

theorem bound_of_ok {L : Ledger} {e : Envelope} {d : EnvelopeData} {authority : Option Pubkey}
    {u v : Unit} (hload : loadEnvelope cfg L e = .ok d)
    (hconstrain : constrainEnvelope cfg L e d authority = .ok u)
    (hbind : bindEnvelope cfg L e d = .ok v) : Bound cfg L e d := by
  obtain ⟨hm, hd, hf, hma, hmb, hs, ht, hva, hvb, hfv, htp⟩ := loadEnvelope_ok hload
  simp only [constrainEnvelope, constraintAddress, except_bind_ok_iff, require_ok_iff] at hconstrain
  obtain ⟨_, -, _, -, _, -, _, -, _, -, _, hka, _, hkb, _, -, _, -, _, -, _, -, _, -, _, -, _, -, _, -,
    _, -, _, -, _, -, _, -, _, -, _, -, _, -, _, -, _, -, _, hep, _, -, _, hes, -⟩ := hconstrain
  simp only [bindEnvelope, validateMarketDomain, validateFeeLedger, canonicalDomainVault,
    canonicalFeeVault, except_bind_ok_iff, okOr_ok_iff, require_ok_iff] at hbind
  obtain ⟨_, ⟨_, -, _, -, _, ⟨hfee, -⟩, _, -, _, -, _, hdm, _, hda, _, rfl, -⟩, _,
    ⟨_, -, _, hfm, -⟩, _, hvaa, _, rfl, _, hvba, _, rfl, _, hfva, _, rfl, _, -, _, hnc, _, -,
    hown⟩ := hbind
  exact ⟨hm, hd, hf, hma, hmb, hs, ht, hva, hvb, hfv, hka, hkb, htp, hfee, hdm, hda, hfm, hvaa, hvba,
    hfva, hep, hes, hown, hnc⟩

omit [Crypto] in
theorem profiled_of_ok {e : Envelope} {d : EnvelopeData} {authority : Option Pubkey} {u : Unit}
    (h : profileEnvelope e d authority = .ok u) : Profiled e d := by
  simp only [profileEnvelope, validateClassicMint, validateCreditDestination, except_bind_ok_iff,
    validateCommonTokenAccount_ok_iff, validateProtectedTokenAccount_ok_iff,
    requireRawCoversAccounted, require_ok_iff] at h
  obtain ⟨_, ⟨_, -, _, -, hfa⟩, _, ⟨_, -, _, -, hfb⟩, _, -, _, ⟨-, -, hdm⟩, _, hva, _, hvb, _, hfv, _,
    hca, _, hcb, hcf⟩ := h
  exact ⟨hfa, hfb, hdm, hva, hvb, hfv, hca, hcb, hcf⟩

omit [Crypto] in
theorem profiledSource_of_ok {e : Envelope} {d : EnvelopeData} {user : Pubkey} {u : Unit}
    (h : profileEnvelope e d (some user) = .ok u) :
    ProtectedProfile d.userSourceA e.mintA.key user := by
  simp only [profileEnvelope, profileSource, except_bind_ok_iff,
    validateProtectedTokenAccount_ok_iff] at h
  obtain ⟨_, -, _, -, _, hs, -⟩ := h
  exact hs

end

end ProgrammableSolana.Core
