import ProgrammableSolana.Solana.Address
import Mathlib.Logic.Function.Basic

/-! Accounts, their owners and their data. Lamports and rent are not modelled. -/
namespace ProgrammableSolana.Solana

open ProgrammableSolana.Lib

/-- The System program, `11111111111111111111111111111111`. -/
def systemProgram : Pubkey := Bytes.zero 32

/-- `TokenkegQfeZyiNwAJbNbGKPFXCWuBvf9Ss623VQ5DA`. -/
def tokenProgram : Pubkey :=
  ⟨[6, 221, 246, 225, 215, 101, 161, 147, 217, 203, 225, 70, 206, 235, 121, 172, 28, 180, 133, 237,
    95, 91, 55, 145, 58, 140, 245, 133, 126, 255, 0, 169], rfl⟩

/-- `TokenzQdBNbLqP5VEhdkAS6EPFLC1PHnBqCXEpPxuEb`. -/
def token2022Program : Pubkey :=
  ⟨[6, 221, 246, 225, 238, 117, 143, 222, 24, 66, 93, 188, 228, 108, 205, 218, 182, 26, 252, 77, 131,
    185, 13, 39, 254, 189, 249, 40, 216, 161, 139, 252], rfl⟩

/-- `So11111111111111111111111111111111111111112`. -/
def nativeMint : Pubkey :=
  ⟨[6, 155, 136, 87, 254, 171, 129, 132, 251, 104, 127, 99, 70, 24, 192, 53, 218, 196, 57, 220, 26,
    235, 59, 85, 152, 160, 240, 0, 0, 0, 0, 1], rfl⟩

/-- `Sysvar1nstructions1111111111111111111111111`. -/
def instructionsSysvarId : Pubkey :=
  ⟨[6, 167, 213, 23, 24, 123, 209, 102, 53, 218, 212, 4, 85, 253, 194, 192, 193, 36,
    198, 143, 33, 86, 117, 165, 219, 186, 203, 95, 8, 0, 0, 0], rfl⟩

/-- `spl_token::state::Mint`. -/
structure Mint where
  mintAuthority : Option Pubkey
  supply : UInt64
  decimals : UInt8
  isInitialized : Bool
  freezeAuthority : Option Pubkey
  deriving DecidableEq

/-- `spl_token::state::AccountState`. -/
inductive AccountState where
  | uninitialized
  | initialized
  | frozen
  deriving DecidableEq, Repr

/-- `spl_token::state::Account`. -/
structure TokenAccount where
  mint : Pubkey
  owner : Pubkey
  amount : UInt64
  delegate : Option Pubkey
  state : AccountState
  isNative : Option UInt64
  delegatedAmount : UInt64
  closeAuthority : Option Pubkey
  deriving DecidableEq

/-- What an account holds: uninterpreted bytes, or data its owner has initialised. `σ` is
the state of the program under study. -/
inductive AccountData (σ : Type) where
  | raw (bytes : List UInt8)
  | mint (mint : Mint)
  | token (account : TokenAccount)
  | state (state : σ)

structure Account (σ : Type) where
  owner : Pubkey
  executable : Bool
  data : AccountData σ

abbrev Ledger (σ : Type) : Type := Pubkey → Account σ

/-- All zero, as a new account's data is. -/
def Zeroed (bytes : List UInt8) : Prop := ∀ b ∈ bytes, b = 0

instance (bytes : List UInt8) : Decidable (Zeroed bytes) := List.decidableBAll _ bytes

namespace Account

variable {σ : Type}

/-- An address nothing was ever stored at. -/
def empty : Account σ := ⟨systemProgram, false, .raw []⟩

/-- Data no program has written to yet. -/
def Blank (a : Account σ) : Prop :=
  match a.data with
  | .raw bytes => Zeroed bytes
  | _ => False

instance (a : Account σ) : Decidable a.Blank := by
  unfold Blank
  cases a.data <;> infer_instance

/-- An address at which an account can still be created. -/
def Unallocated (a : Account σ) : Prop :=
  a.owner = systemProgram ∧
    match a.data with
    | .raw bytes => bytes = []
    | _ => False

instance (a : Account σ) : Decidable a.Unallocated := by
  unfold Unallocated
  cases a.data <;> infer_instance

theorem Unallocated.blank {a : Account σ} (h : a.Unallocated) : a.Blank := by
  obtain ⟨-, hdata⟩ := h
  unfold Blank
  split at hdata
  · simp [hdata, Zeroed]
  · exact hdata.elim

end Account

namespace Ledger

variable {σ : Type} (L : Ledger σ)

/-- The ledger with the listed accounts and nothing else. -/
def ofList (accounts : List (Pubkey × Account σ)) : Ledger σ := fun key =>
  (accounts.lookup key).getD .empty

/-- The classic SPL token account at `key`, if there is one. -/
def token? (key : Pubkey) : Option TokenAccount :=
  if (L key).owner = tokenProgram then
    match (L key).data with
    | .token t => some t
    | _ => none
  else none

def mint? (key : Pubkey) : Option Mint :=
  if (L key).owner = tokenProgram then
    match (L key).data with
    | .mint m => some m
    | _ => none
  else none

/-- The state `programId` keeps at `key`, if there is one. -/
def state? (programId key : Pubkey) : Option σ :=
  if (L key).owner = programId then
    match (L key).data with
    | .state s => some s
    | _ => none
  else none

def setData (key : Pubkey) (data : AccountData σ) : Ledger σ :=
  Function.update L key { L key with data := data }

/-- The account under another owner, with other data. -/
def assign (key owner : Pubkey) (data : AccountData σ) : Ledger σ :=
  Function.update L key { L key with owner, data }

def setToken (key : Pubkey) (t : TokenAccount) : Ledger σ := L.setData key (.token t)

def setMint (key : Pubkey) (m : Mint) : Ledger σ := L.setData key (.mint m)

def setState (key : Pubkey) (s : σ) : Ledger σ := L.setData key (.state s)

variable {L}

@[simp] theorem setData_self (key : Pubkey) (data : AccountData σ) :
    L.setData key data key = { L key with data := data } := by
  simp [setData]

theorem setData_of_ne {key k : Pubkey} (h : k ≠ key) (data : AccountData σ) :
    L.setData key data k = L k := by
  simp [setData, h]

@[simp] theorem assign_self (key owner : Pubkey) (data : AccountData σ) :
    L.assign key owner data key = { L key with owner, data } := by
  simp [assign]

theorem assign_of_ne {key k : Pubkey} (h : k ≠ key) (owner : Pubkey) (data : AccountData σ) :
    L.assign key owner data k = L k := by
  simp [assign, h]

@[simp] theorem setData_owner (key k : Pubkey) (data : AccountData σ) :
    (L.setData key data k).owner = (L k).owner := by
  by_cases h : k = key
  · subst h; simp
  · rw [setData_of_ne h]

@[simp] theorem setData_executable (key k : Pubkey) (data : AccountData σ) :
    (L.setData key data k).executable = (L k).executable := by
  by_cases h : k = key
  · subst h; simp
  · rw [setData_of_ne h]

theorem token?_eq_some {key : Pubkey} {t : TokenAccount} :
    L.token? key = some t ↔ (L key).owner = tokenProgram ∧ (L key).data = .token t := by
  unfold token?
  by_cases h : (L key).owner = tokenProgram
  · simp only [h, if_true, true_and]
    cases (L key).data <;> simp
  · simp [h]

theorem mint?_eq_some {key : Pubkey} {m : Mint} :
    L.mint? key = some m ↔ (L key).owner = tokenProgram ∧ (L key).data = .mint m := by
  unfold mint?
  by_cases h : (L key).owner = tokenProgram
  · simp only [h, if_true, true_and]
    cases (L key).data <;> simp
  · simp [h]

theorem state?_eq_some {programId key : Pubkey} {s : σ} :
    L.state? programId key = some s ↔ (L key).owner = programId ∧ (L key).data = .state s := by
  unfold state?
  by_cases h : (L key).owner = programId
  · simp only [h, if_true, true_and]
    cases (L key).data <;> simp
  · simp [h]

theorem token?_congr {L' : Ledger σ} {key : Pubkey} (h : L' key = L key) :
    L'.token? key = L.token? key := by
  simp [token?, h]

theorem mint?_congr {L' : Ledger σ} {key : Pubkey} (h : L' key = L key) :
    L'.mint? key = L.mint? key := by
  simp [mint?, h]

theorem state?_congr {L' : Ledger σ} {programId key : Pubkey} (h : L' key = L key) :
    L'.state? programId key = L.state? programId key := by
  simp [state?, h]

theorem token?_setState {key k : Pubkey} {s : σ} (h : (L key).owner ≠ tokenProgram) :
    (L.setState key s).token? k = L.token? k := by
  by_cases hk : k = key
  · subst hk
    simp [token?, setState, h]
  · exact token?_congr (setData_of_ne hk _)

theorem token?_setToken_self {key : Pubkey} {t : TokenAccount} (h : (L key).owner = tokenProgram) :
    (L.setToken key t).token? key = some t := by
  simp [token?_eq_some, setToken, h]

theorem token?_setToken_of_ne {key k : Pubkey} {t : TokenAccount} (h : k ≠ key) :
    (L.setToken key t).token? k = L.token? k :=
  token?_congr (setData_of_ne h _)

theorem mint?_setMint_self {key : Pubkey} {m : Mint} (h : (L key).owner = tokenProgram) :
    (L.setMint key m).mint? key = some m := by
  simp [mint?_eq_some, setMint, h]

theorem mint?_setMint_of_ne {key k : Pubkey} {m : Mint} (h : k ≠ key) :
    (L.setMint key m).mint? k = L.mint? k :=
  mint?_congr (setData_of_ne h _)

theorem state?_setState_self {programId key : Pubkey} {s : σ} (h : (L key).owner = programId) :
    (L.setState key s).state? programId key = some s := by
  simp [state?_eq_some, setState, h]

theorem state?_setState_of_ne {programId key k : Pubkey} {s : σ} (h : k ≠ key) :
    (L.setState key s).state? programId k = L.state? programId k :=
  state?_congr (setData_of_ne h _)

/-- A key holds one kind of data. -/
theorem token?_ne_mint? {k k' : Pubkey} {t : TokenAccount} {m : Mint} (ht : L.token? k = some t)
    (hm : L.mint? k' = some m) : k ≠ k' := by
  rintro rfl
  have ht' := (token?_eq_some.mp ht).2
  rw [(mint?_eq_some.mp hm).2] at ht'
  cases ht'

theorem state?_ne_token? {programId k k' : Pubkey} {s : σ} {t : TokenAccount}
    (hs : L.state? programId k = some s) (ht : L.token? k' = some t) : k ≠ k' := by
  rintro rfl
  have hs' := (state?_eq_some.mp hs).2
  rw [(token?_eq_some.mp ht).2] at hs'
  cases hs'

theorem state?_ne_mint? {programId k k' : Pubkey} {s : σ} {m : Mint}
    (hs : L.state? programId k = some s) (hm : L.mint? k' = some m) : k ≠ k' := by
  rintro rfl
  have hs' := (state?_eq_some.mp hs).2
  rw [(mint?_eq_some.mp hm).2] at hs'
  cases hs'

end Ledger

end ProgrammableSolana.Solana
