import ProgrammableSolana.Core.Validation

/-! Account loading and account constraints, as the framework performs them before a handler
runs, and the execution envelope the three execute instructions have in common. -/
namespace ProgrammableSolana.Core

open ProgrammableSolana.Lib ProgrammableSolana.Solana

section Accounts

variable (L : Ledger)

def loadSigner (info : AccountInfo) : Result Unit :=
  require (info.isSigner = true) (.anchor .accountNotSigner)

/-- The owner check of a typed account. A System account counts as holding no lamports. -/
def requireOwner (key owner : Pubkey) : Result Unit := do
  require ((L key).owner ≠ systemProgram) (.anchor .accountNotInitialized)
  require ((L key).owner = owner) (.anchor .accountOwnedByWrongProgram)

def loadState (programId key : Pubkey) : Result CoreState := do
  requireOwner L key programId
  match (L key).data with
  | .state s => .ok s
  | .raw bytes =>
    .error (if bytes.length < 8 then .anchor .accountDiscriminatorNotFound
      else .anchor .accountDiscriminatorMismatch)
  | _ => .error (.anchor .accountDiscriminatorMismatch)

def loadMarket (programId key : Pubkey) : Result MarketV0 := do
  match ← loadState L programId key with
  | .market market => .ok market
  | _ => .error (.anchor .accountDiscriminatorMismatch)

def loadDomain (programId key : Pubkey) : Result DomainV0 := do
  match ← loadState L programId key with
  | .domain domain => .ok domain
  | _ => .error (.anchor .accountDiscriminatorMismatch)

def loadFeeLedger (programId key : Pubkey) : Result FeeLedgerV0 := do
  match ← loadState L programId key with
  | .feeLedger feeLedger => .ok feeLedger
  | _ => .error (.anchor .accountDiscriminatorMismatch)

def loadMintAccount (key : Pubkey) : Result Mint := do
  requireOwner L key tokenProgram
  match (L key).data with
  | .mint mint => .ok mint
  | _ => .error (.anchor .accountDidNotDeserialize)

/-- Also what `reload` does after a call. -/
def loadTokenAccount (key : Pubkey) : Result TokenAccount := do
  requireOwner L key tokenProgram
  match (L key).data with
  | .token account => .ok account
  | _ => .error (.anchor .accountDidNotDeserialize)

/-- `Program<Token>`. -/
def loadTokenProgram (info : AccountInfo) : Result Unit := do
  require (info.key = tokenProgram) (.anchor .invalidProgramId)
  require ((L info.key).executable = true) (.anchor .invalidProgramExecutable)

variable {L}

theorem loadState_ok_iff {programId key : Pubkey} (hS : programId ≠ systemProgram) {s : CoreState} :
    loadState L programId key = .ok s ↔ L.state? programId key = some s := by
  rw [Ledger.state?_eq_some]
  simp only [loadState, requireOwner, except_bind_ok_iff, require_ok_iff]
  cases hd : (L key).data <;> simp only [Except.ok.injEq, reduceCtorEq, and_false, exists_false]
  next t =>
    constructor
    · rintro ⟨_, ⟨_, -, ho⟩, rfl⟩
      exact ⟨ho, rfl⟩
    · rintro ⟨ho, ht⟩
      cases ht
      exact ⟨(), ⟨(), ho ▸ hS, ho⟩, rfl⟩

theorem loadMarket_ok_iff {programId key : Pubkey} (hS : programId ≠ systemProgram)
    {market : MarketV0} :
    loadMarket L programId key = .ok market ↔ L.state? programId key = some (.market market) := by
  simp only [loadMarket, except_bind_ok_iff, loadState_ok_iff hS]
  constructor
  · rintro ⟨s, hs, h⟩
    cases s <;> cases h
    exact hs
  · exact fun h => ⟨_, h, rfl⟩

theorem loadDomain_ok_iff {programId key : Pubkey} (hS : programId ≠ systemProgram)
    {domain : DomainV0} :
    loadDomain L programId key = .ok domain ↔ L.state? programId key = some (.domain domain) := by
  simp only [loadDomain, except_bind_ok_iff, loadState_ok_iff hS]
  constructor
  · rintro ⟨s, hs, h⟩
    cases s <;> cases h
    exact hs
  · exact fun h => ⟨_, h, rfl⟩

theorem loadFeeLedger_ok_iff {programId key : Pubkey} (hS : programId ≠ systemProgram)
    {feeLedger : FeeLedgerV0} :
    loadFeeLedger L programId key = .ok feeLedger ↔
      L.state? programId key = some (.feeLedger feeLedger) := by
  simp only [loadFeeLedger, except_bind_ok_iff, loadState_ok_iff hS]
  constructor
  · rintro ⟨s, hs, h⟩
    cases s <;> cases h
    exact hs
  · exact fun h => ⟨_, h, rfl⟩

theorem tokenProgram_ne_system : tokenProgram ≠ systemProgram := by decide

theorem loadMintAccount_ok_iff {key : Pubkey} {mint : Mint} :
    loadMintAccount L key = .ok mint ↔ L.mint? key = some mint := by
  rw [Ledger.mint?_eq_some]
  simp only [loadMintAccount, requireOwner, except_bind_ok_iff, require_ok_iff]
  cases hd : (L key).data <;> simp only [Except.ok.injEq, reduceCtorEq, and_false, exists_false]
  next m =>
    constructor
    · rintro ⟨_, ⟨_, -, ho⟩, rfl⟩
      exact ⟨ho, rfl⟩
    · rintro ⟨ho, ht⟩
      cases ht
      exact ⟨(), ⟨(), ho ▸ tokenProgram_ne_system, ho⟩, rfl⟩

theorem loadTokenAccount_ok_iff {key : Pubkey} {account : TokenAccount} :
    loadTokenAccount L key = .ok account ↔ L.token? key = some account := by
  rw [Ledger.token?_eq_some]
  simp only [loadTokenAccount, requireOwner, except_bind_ok_iff, require_ok_iff]
  cases hd : (L key).data <;> simp only [Except.ok.injEq, reduceCtorEq, and_false, exists_false]
  next t =>
    constructor
    · rintro ⟨_, ⟨_, -, ho⟩, rfl⟩
      exact ⟨ho, rfl⟩
    · rintro ⟨ho, ht⟩
      cases ht
      exact ⟨(), ⟨(), ho ▸ tokenProgram_ne_system, ho⟩, rfl⟩

end Accounts

section Constraints

def constraintMut (info : AccountInfo) : Result Unit :=
  require (info.isWritable = true) (.anchor .constraintMut)

/-- `seeds = [..], bump = stored`, the stored bump being the last seed. -/
def constraintSeeds [Crypto] (cfg : Config) (key : Pubkey) (seeds : List (List UInt8)) :
    Result Unit :=
  require (createProgramAddress seeds cfg.ID = some key) (.anchor .constraintSeeds)

def constraintAddress (key expected : Pubkey) (e : Error) : Result Unit := require (key = expected) e

def constraintTokenMint (account : TokenAccount) (mint : Pubkey) : Result Unit :=
  require (account.mint = mint) (.anchor .constraintTokenMint)

def constraintTokenAuthority (account : TokenAccount) (authority : Pubkey) : Result Unit :=
  require (account.owner = authority) (.anchor .constraintTokenOwner)

end Constraints

end ProgrammableSolana.Core
