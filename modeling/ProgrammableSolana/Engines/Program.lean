import ProgrammableSolana.Core.Error
import ProgrammableSolana.Lib.Codec
import ProgrammableSolana.Solana.CallTree

/-! The framework around the engines and the probes: how their accounts are loaded, created and
written back, and what a run of such a program is as an invocation. -/
namespace ProgrammableSolana.Engines

open ProgrammableSolana.Lib ProgrammableSolana.Solana

/-- What an instruction fails with: the framework or the runtime rejects it, or the program does. -/
inductive ProgramError (ε : Type) where
  | instructionFallbackNotFound
  | instructionDidNotDeserialize
  | accountNotEnoughKeys
  | tryingToInitPayerAsProgramAccount
  | anchor (e : Core.AnchorError)
  | runtime (e : RuntimeError)
  | program (e : ε)
  deriving DecidableEq, Repr

/-- What a run comes to: the call it makes, the accounts it writes after that and the return data it
sets. -/
structure Outcome where
  helper : Option Instruction
  stored : List (Pubkey × List UInt8)
  returned : Option (List UInt8)
  deriving DecidableEq

section Accounts

variable {σ ε : Type} (L : Ledger σ)

/-- The next account of the list. -/
def nextAccount : List AccountInfo → Except (ProgramError ε) (AccountInfo × List AccountInfo)
  | info :: infos => .ok (info, infos)
  | [] => .error .accountNotEnoughKeys

theorem nextAccount_ok {infos infos' : List AccountInfo} {info : AccountInfo}
    (h : nextAccount infos = (.ok (info, infos') : Except (ProgramError ε) _)) :
    infos = info :: infos' := by
  cases infos with
  | nil => cases h
  | cons head tail =>
    cases h
    rfl

/-- The arguments of an instruction; bytes after the last one are ignored. -/
def readArguments {α : Type} (reader : Reader Empty α) : Except (ProgramError ε) α :=
  reader.decode.mapError fun _ => .instructionDidNotDeserialize

/-- `Signer`. -/
def loadSigner (info : AccountInfo) : Except (ProgramError ε) Unit :=
  require (info.isSigner = true) (.anchor .accountNotSigner)

/-- `Program<System>`. -/
def loadSystemProgram (info : AccountInfo) : Except (ProgramError ε) Unit := do
  require (info.key = systemProgram) (.anchor .invalidProgramId)
  require ((L info.key).executable = true) (.anchor .invalidProgramExecutable)

/-- `Account<T>`: the state an account of `owner` holds. A System account counts as holding no
lamports. -/
def loadAccount {δ α : Type} (owner : Pubkey) (discriminator : Bytes 8)
    (reader : List UInt8 → Reader δ α) (key : Pubkey) : Except (ProgramError ε) α := do
  require ((L key).owner ≠ systemProgram) (.anchor .accountNotInitialized)
  require ((L key).owner = owner) (.anchor .accountOwnedByWrongProgram)
  match (L key).data with
  | .raw data => do
    require (8 ≤ data.length) (.anchor .accountDiscriminatorNotFound)
    require (data.take 8 = discriminator.toList) (.anchor .accountDiscriminatorMismatch)
    (reader data).decode.mapError fun _ => .anchor .accountDidNotDeserialize
  | _ => .error (.anchor .accountDiscriminatorMismatch)

/-- `init`: whether the System program creates an account, which has to sign unless its address is
derived. -/
def createAccount (payer info : AccountInfo) (derived : Bool) : Except (ProgramError ε) Unit := do
  require (info.key ≠ payer.key) .tryingToInitPayerAsProgramAccount
  require (info.isWritable = true ∧ (derived = true ∨ info.isSigner = true))
    (.runtime .privilegeEscalation)
  require (L info.key).Unallocated (.anchor .accountAlreadyInUse)

/-- The data of an account after the state in it was written back. -/
def writeBack (key : Pubkey) (encoded : List UInt8) : List UInt8 :=
  match (L key).data with
  | .raw data => encoded ++ data.drop encoded.length
  | _ => encoded

/-- The ledger after the accounts were written. -/
def Outcome.store (o : Outcome) (programId : Pubkey) : Ledger σ :=
  o.stored.foldl (fun L p => L.assign p.1 programId (.raw p.2)) L

end Accounts

section Loading

variable {σ δ ε α : Type} {L : Ledger σ} {owner key : Pubkey} {discriminator : Bytes 8}

/-- What is loaded is what the data of the account starts with. -/
theorem loadAccount_ok_iff {c : Codec δ α} (hvalid : ∀ a, c.Valid a)
    (htag : ∀ a, discriminator.toList <+: c.enc a) (howner : owner ≠ systemProgram) {a : α} :
    loadAccount L owner discriminator c.read key = (.ok a : Except (ProgramError ε) α) ↔
      (L key).owner = owner ∧ ∃ rest, (L key).data = .raw (c.enc a ++ rest) := by
  have hlen : discriminator.toList.length = 8 := Bytes.length_toList discriminator
  unfold loadAccount
  simp only [except_bind_ok_iff, require_ok_iff]
  constructor
  · intro h
    obtain ⟨_, -, _, hown, h⟩ := h
    refine ⟨hown, ?_⟩
    cases hdata : (L key).data with
    | raw data =>
      simp only [hdata, except_bind_ok_iff, require_ok_iff, mapError_ok_iff] at h
      obtain ⟨_, -, _, -, hread⟩ := h
      refine ⟨data.drop c.width, ?_⟩
      rw [← (c.decode_ok hread).2, List.take_append_drop]
    | mint m => simp [hdata] at h
    | token t => simp [hdata] at h
    | state s => simp [hdata] at h
  · intro h
    obtain ⟨hown, rest, hdata⟩ := h
    obtain ⟨tail, htail⟩ := htag a
    have htake : (c.enc a ++ rest).take 8 = discriminator.toList := by
      rw [← htail, List.append_assoc, List.take_left' hlen]
    have hlong : 8 ≤ (c.enc a ++ rest).length := by
      rw [← htail, List.length_append, List.length_append, hlen]
      omega
    refine ⟨(), by rwa [hown], (), hown, ?_⟩
    simp only [hdata, except_bind_ok_iff, require_ok_iff, mapError_ok_iff]
    exact ⟨(), hlong, (), htake, c.decode_append (hvalid a) rest⟩

theorem not_blank_of_tag (htag : ¬ Zeroed discriminator.toList) {data : List UInt8}
    (hdata : (L key).data = .raw data) (htagged : discriminator.toList <+: data) :
    ¬ (L key).Blank := by
  intro hblank
  unfold Account.Blank at hblank
  rw [hdata] at hblank
  apply htag
  intro b hb
  exact hblank b (htagged.subset hb)

/-- Writing back replaces what the data starts with and leaves the rest. -/
theorem writeBack_eq {old new rest : List UInt8} (hdata : (L key).data = .raw (old ++ rest))
    (hlen : new.length = old.length) : writeBack L key new = new ++ rest := by
  unfold writeBack
  rw [hdata, hlen]
  simp

end Loading

section Runs

variable {σ ev ε : Type}

/-- An invocation in which a program came to an outcome. Return data that the program does not set
is that of its call. -/
def Outcome.Ran (programId : Pubkey) (o : Outcome) (t : Invocation σ ev) : Prop :=
  match o.helper, t.calls with
  | none, [] => t.frame.after = o.store t.frame.before programId ∧
      t.frame.returned = o.returned.map fun data => (programId, data)
  | some ix, [c] => c.frame.instruction = ix ∧ c.frame.before = t.frame.before ∧
      t.frame.after = o.store c.frame.after programId ∧
      t.frame.returned = (o.returned.map fun data => (programId, data)).or c.frame.returned
  | _, _ => False

/-- An invocation of a program with the given entrypoint. -/
def Runs (programId : Pubkey)
    (entry : List (Frame σ ev) → Ledger σ → List AccountInfo → List UInt8 →
      Except (ProgramError ε) Outcome)
    (callers : List (Frame σ ev)) (t : Invocation σ ev) : Prop :=
  ∃ o, entry callers t.frame.before t.frame.instruction.presented t.frame.instruction.data = .ok o ∧
    o.Ran programId t

variable {programId : Pubkey} {o : Outcome} {t : Invocation σ ev}

theorem Outcome.Ran.of_none (h : o.Ran programId t) (hhelper : o.helper = none) :
    t.calls = [] ∧ t.frame.after = o.store t.frame.before programId ∧
      t.frame.returned = o.returned.map fun data => (programId, data) := by
  unfold Outcome.Ran at h
  rw [hhelper] at h
  split at h
  · next hcalls => exact ⟨hcalls, h⟩
  · next hsome _ => cases hsome
  · exact h.elim

theorem Outcome.Ran.called (h : o.Ran programId t) {c : Invocation σ ev} (hc : c ∈ t.calls) :
    o.helper = some c.frame.instruction := by
  unfold Outcome.Ran at h
  split at h
  · next hcalls =>
    rw [hcalls] at hc
    cases hc
  · next hhelper hcalls =>
    rw [hcalls, List.mem_singleton] at hc
    rw [hhelper, hc, h.1]
  · exact h.elim

/-- The accounts are written on top of what the call left, and what is returned is the program's own
or what the call returned. -/
theorem Outcome.Ran.effect (h : o.Ran programId t) :
    (t.frame.after = o.store t.frame.before programId ∨
      ∃ c ∈ t.calls, c.frame.before = t.frame.before ∧
        t.frame.after = o.store c.frame.after programId) ∧
    ∀ p, t.frame.returned = some p → (∃ data, o.returned = some data ∧ p = (programId, data)) ∨
      ∃ c ∈ t.calls, c.frame.returned = some p := by
  unfold Outcome.Ran at h
  split at h
  · refine ⟨.inl h.1, ?_⟩
    intro p hp
    rw [h.2, Option.map_eq_some_iff] at hp
    obtain ⟨data, hdata, hpair⟩ := hp
    exact .inl ⟨data, hdata, hpair.symm⟩
  · next c _ hcalls =>
    obtain ⟨-, hbefore, hafter, hreturned⟩ := h
    have hmem : c ∈ t.calls := by
      rw [hcalls]
      exact List.mem_singleton_self c
    refine ⟨.inr ⟨c, hmem, hbefore, hafter⟩, ?_⟩
    intro p hp
    rw [hreturned] at hp
    cases hdata : o.returned with
    | none =>
      rw [hdata] at hp
      exact .inr ⟨c, hmem, hp⟩
    | some data =>
      rw [hdata] at hp
      exact .inl ⟨data, rfl, (Option.some.inj hp).symm⟩
  · exact h.elim

end Runs

section Store

variable {σ : Type} {L : Ledger σ} {o : Outcome} {programId : Pubkey}

private theorem foldl_assign_of_not_mem {stored : List (Pubkey × List UInt8)} {k : Pubkey}
    (h : k ∉ stored.map Prod.fst) (L : Ledger σ) :
    stored.foldl (fun L p => L.assign p.1 programId (.raw p.2)) L k = L k := by
  induction stored generalizing L with
  | nil => rfl
  | cons p stored ih =>
    simp only [List.map_cons, List.mem_cons, not_or] at h
    rw [List.foldl_cons, ih h.2, Ledger.assign_of_ne h.1]

theorem Outcome.store_of_not_mem {k : Pubkey} (h : k ∉ o.stored.map Prod.fst) :
    o.store L programId k = L k := foldl_assign_of_not_mem h L

theorem Outcome.store_single {key : Pubkey} {bytes : List UInt8} (h : o.stored = [(key, bytes)]) :
    o.store L programId = L.assign key programId (.raw bytes) := by
  unfold Outcome.store
  rw [h]
  rfl

private theorem assign_ownStep {key : Pubkey} {L : Ledger σ} {bytes : List UInt8}
    (h : (L key).owner = programId ∨ IsNative (L key).owner) :
    OwnStep programId L (L.assign key programId (.raw bytes)) := by
  intro p hp hnative
  have hne : (L key).owner ≠ p := by
    rintro rfl
    rcases h with howner | howner
    · exact hp howner
    · exact hnative howner
  constructor
  · intro k hk
    apply Ledger.assign_of_ne
    rintro rfl
    exact hne hk
  · intro k hk
    left
    apply Ledger.assign_of_ne
    rintro rfl
    rw [Ledger.assign_self] at hk
    exact hp hk.symm

theorem Outcome.store_ownStep (h : ∀ p ∈ o.stored, (L p.1).owner = programId ∨
    IsNative (L p.1).owner) : OwnStep programId L (o.store L programId) := by
  unfold Outcome.store
  generalize o.stored = stored at h
  induction stored generalizing L with
  | nil => exact .refl L
  | cons p stored ih =>
    rw [List.foldl_cons]
    apply OwnStep.trans _ _ _ (assign_ownStep (h p List.mem_cons_self))
    apply ih
    intro q hq
    by_cases hk : q.1 = p.1
    · left
      rw [hk, Ledger.assign_self]
    · rw [Ledger.assign_of_ne hk]
      exact h q (List.mem_cons_of_mem _ hq)

theorem performAll_write_ok [Crypto] {ev : Type} {caller : Pubkey} {priv : Privileges}
    {w w' : World σ ev} {key : Pubkey} {bytes : List UInt8}
    (h : (performAll priv ([.write programId key programId false bytes] :
      List (Action caller))).run w = (.ok (), w'))
    (hcode : (w.ledger key).executable = false) :
    w'.ledger = w.ledger.assign key programId (.raw bytes) ∧
      (w.ledger key).owner = programId := by
  obtain ⟨_, w₁, hwrite, hnil⟩ := Exec.bind_ok_iff.mp h
  obtain ⟨-, rfl⟩ := Exec.pure_ok_iff.mp hnil
  rcases Action.perform_ok hwrite with ⟨_, _, _, _, _, haction, -, -, -, howner, -, rfl⟩ |
    ⟨_, _, _, haction, -⟩
  · injection haction with h₁ h₂ h₃ h₄ h₅
    subst h₁ h₂ h₃ h₄ h₅
    refine ⟨?_, howner⟩
    rw [← hcode]
    rfl
  · cases haction

end Store

end ProgrammableSolana.Engines
