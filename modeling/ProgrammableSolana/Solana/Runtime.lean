import ProgrammableSolana.Solana.TokenSteps

/-! Cross-program invocation: the privileges a callee receives, what it can do with them, and
the Token calls a program makes itself. -/
namespace ProgrammableSolana.Solana

open ProgrammableSolana.Lib

/-- An account as an instruction receives it. Owner, data and the executable flag are read from
the ledger. -/
structure AccountInfo where
  key : Pubkey
  isSigner : Bool
  isWritable : Bool
  deriving DecidableEq

structure AccountMeta where
  pubkey : Pubkey
  isSigner : Bool
  isWritable : Bool
  deriving DecidableEq

namespace AccountMeta

/-- `AccountMeta::new`. -/
def new (pubkey : Pubkey) (isSigner : Bool) : AccountMeta := ⟨pubkey, isSigner, true⟩

/-- `AccountMeta::new_readonly`. -/
def newReadonly (pubkey : Pubkey) (isSigner : Bool) : AccountMeta := ⟨pubkey, isSigner, false⟩

end AccountMeta

structure Instruction where
  programId : Pubkey
  accounts : List AccountMeta
  data : List UInt8
  deriving DecidableEq

inductive RuntimeError where
  | privilegeEscalation
  | missingAccount
  | unsupportedProgramId
  | reentrancyNotAllowed
  | illegalWrite
  | calleeFailed
  | maxSeedLengthExceeded
  | token (e : TokenError)
  deriving DecidableEq, Repr

/-- A cross-program call into an engine, with the ledgers around it and the return data it
left. -/
structure EngineCall (σ : Type) where
  instruction : Instruction
  before : Ledger σ
  after : Ledger σ
  returned : Option (Pubkey × List UInt8)

inductive Event (σ ev : Type) where
  | token (op : TokenOp) (signers : List Pubkey) (before : Ledger σ)
  | call (c : EngineCall σ)
  | emitted (e : ev)

def Event.call? {σ ev : Type} : Event σ ev → Option (EngineCall σ)
  | .call c => some c
  | _ => none

/-- The engine calls of a log, oldest first. -/
def engineCalls {σ ev : Type} (log : List (Event σ ev)) : List (EngineCall σ) :=
  log.filterMap Event.call?

def Event.emitted? {σ ev : Type} : Event σ ev → Option ev
  | .emitted e => some e
  | _ => none

/-- What a log says was emitted, oldest first. -/
def emittedEvents {σ ev : Type} (log : List (Event σ ev)) : List ev := log.filterMap Event.emitted?

/-- The state an instruction acts on. `log` lists what happened so far, oldest first. -/
structure World (σ ev : Type) where
  ledger : Ledger σ
  returnData : Option (Pubkey × List UInt8)
  log : List (Event σ ev)

/-- One thing a program other than `programId` does: rewriting an account it runs as the owner
of, or a Token instruction signed by keys `programId` does not control. -/
inductive Action [Crypto] (programId : Pubkey) where
  | write (program key newOwner : Pubkey) (executable : Bool) (bytes : List UInt8)
  | token (op : TokenOp) (signers : List (ExternalSigner programId))

/-- What a running program may use: the accounts it may write, the programs it may run as or
call, and the signatures passed down to it. -/
structure Privileges where
  writable : Pubkey → Bool
  callable : Pubkey → Bool
  signers : List Pubkey

section Actions

variable [Crypto] {σ ev : Type} {programId : Pubkey}

/-- An account changes owner only with its data zeroed, and the Token program's own accounts
only through Token instructions. -/
def Action.perform (priv : Privileges) (a : Action programId) :
    Exec (World σ ev) RuntimeError Unit := fun w =>
  match a with
  | .write program key newOwner executable bytes =>
    if priv.callable program = true ∧ program ≠ tokenProgram ∧ priv.writable key = true ∧
        (w.ledger key).owner = program ∧ (newOwner = program ∨ Zeroed bytes) then
      (.ok (), { w with ledger := Function.update w.ledger key ⟨newOwner, executable, .raw bytes⟩ })
    else
      (.error .illegalWrite, w)
  | .token op external =>
    let signers := external.map ExternalSigner.key ++ priv.signers
    if priv.callable tokenProgram = true ∧ ∀ key ∈ op.writes, priv.writable key = true then
      match op.apply w.ledger signers with
      | .ok ledger => (.ok (), { w with ledger, log := w.log ++ [.token op signers w.ledger] })
      | .error e => (.error (.token e), w)
    else
      (.error .privilegeEscalation, w)

def performAll (priv : Privileges) : List (Action programId) → Exec (World σ ev) RuntimeError Unit
  | [] => pure ()
  | a :: as => do
    a.perform priv
    performAll priv as

/-- What a callee does with a call: what it and the programs below it do, in order, and the
return data it leaves. -/
structure Response (programId : Pubkey) where
  actions : List (Action programId)
  returned : Option (Pubkey × List UInt8)

/-- A callee's behaviour as a function of the call and the accounts; `none` is a failure. -/
abbrev Callee (σ : Type) (programId : Pubkey) : Type :=
  Instruction → Ledger σ → Option (Response programId)

/-- Privileges follow the metas; `programId`, already on the call stack, cannot be re-entered. -/
def Instruction.privileges (ix : Instruction) (programId : Pubkey) : Privileges where
  writable key := ix.accounts.any fun m => m.pubkey = key && m.isWritable
  callable program :=
    (program = ix.programId || ix.accounts.any fun m => m.pubkey = program) && program ≠ programId
  signers := (ix.accounts.filter AccountMeta.isSigner).map AccountMeta.pubkey

/-- A meta asks for no more than the caller holds or signs for itself. -/
def AccountMeta.Granted (m : AccountMeta) (caller : List AccountInfo) (pdaSigners : List Pubkey) :
    Prop :=
  (m.isWritable = true → ∃ info ∈ caller, info.key = m.pubkey ∧ info.isWritable = true) ∧
    (m.isSigner = true →
      (∃ info ∈ caller, info.key = m.pubkey ∧ info.isSigner = true) ∨ m.pubkey ∈ pdaSigners)

instance (m : AccountMeta) (caller : List AccountInfo) (pdaSigners : List Pubkey) :
    Decidable (m.Granted caller pdaSigners) := by
  unfold AccountMeta.Granted
  infer_instance

/-- `invoke_signed`: `caller` lists the accounts of the running instruction, `infos` those
passed along, `pdaSigners` the addresses signed for by seeds. -/
def invokeSigned (programId : Pubkey) (callee : Callee σ programId) (caller : List AccountInfo)
    (ix : Instruction) (infos : List AccountInfo) (pdaSigners : List Pubkey) :
    Exec (World σ ev) RuntimeError Unit := do
  .ensure (∀ m ∈ ix.accounts, ∃ info ∈ infos, info.key = m.pubkey) .missingAccount
  .ensure (∀ m ∈ ix.accounts, m.Granted caller pdaSigners) .privilegeEscalation
  .ensure (∃ info ∈ caller, info.key = ix.programId) .missingAccount
  let before ← .get
  .ensure ((before.ledger ix.programId).executable = true) .unsupportedProgramId
  .ensure (ix.programId ≠ programId) .reentrancyNotAllowed
  let response ← .ofExcept (okOr (callee ix before.ledger) .calleeFailed)
  performAll (ix.privileges programId) response.actions
  .modify fun w => { w with
    returnData := response.returned
    log := w.log ++ [.call ⟨ix, before.ledger, w.ledger, response.returned⟩] }

end Actions

section TokenCalls

variable {σ ev : Type}

/-- A Token instruction the running program issues, by the authority of at most one signer. -/
def tokenInvoke (caller : List AccountInfo) (pdaSigners : List Pubkey) (op : TokenOp)
    (authority : Option Pubkey) : Exec (World σ ev) RuntimeError Unit := do
  .ensure (∀ key ∈ op.writes, ∃ info ∈ caller, info.key = key ∧ info.isWritable = true)
    .privilegeEscalation
  .ensure (∀ a ∈ authority, (∃ info ∈ caller, info.key = a ∧ info.isSigner = true) ∨ a ∈ pdaSigners)
    .privilegeEscalation
  let before ← .get
  let ledger ← .ofExcept ((op.apply before.ledger authority.toList).mapError .token)
  .modify fun w => { w with
    ledger
    returnData := none
    log := w.log ++ [.token op authority.toList before.ledger] }

end TokenCalls

end ProgrammableSolana.Solana
