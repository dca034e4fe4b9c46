import ProgrammableSolana.Engines.RoutedProgram

/-! The helper of the routed engine: a counter that the signature of one callback address advances. -/
namespace ProgrammableSolana.Engines.CallbackProbe

open ProgrammableSolana.Lib ProgrammableSolana.Solana ProgrammableSolana.Engines

/-- `6QXXm7aqjRxQGJ6V3nvtS5taHuojM9SisVrHg3Xrj1Vj`. -/
def ID : Pubkey := RoutedPlan.disposableHelperProgramId

inductive ProbeError where
  | unexpectedAccount
  | invalidCallback
  | callbackNotSigner
  | callbackWritable
  | callbackExecutable
  | invalidAmount
  | arithmeticOverflow
  | deliberateFailure
  deriving DecidableEq, Repr

def probeReturnMagic : List UInt8 := ascii "CBKPRB00"

def initializeDiscriminator : Bytes 8 := RoutedPlan.initializeDiscriminator

def incrementDiscriminator : Bytes 8 := ⟨helperIncrementDiscriminator, rfl⟩

def incrementAndFailDiscriminator : Bytes 8 := ⟨[102, 67, 239, 109, 108, 175, 111, 153], rfl⟩

/-- The first bytes of `sha256("account:HelperState")`. -/
def helperStateDiscriminator : Bytes 8 := ⟨[170, 240, 172, 8, 189, 143, 96, 178], rfl⟩

structure HelperState where
  allowedCallback : Pubkey
  calls : UInt64
  value : UInt64
  deriving DecidableEq

def HelperState.trySerialize (s : HelperState) : List UInt8 :=
  [helperStateDiscriminator.toList, s.allowedCallback.toList, (u64LeBytes s.calls).toList,
    (u64LeBytes s.value).toList].flatten

def readHelperState (data : List UInt8) : Reader ProbeError HelperState := do
  let _ ← readArray data 8
  let allowedCallback ← readArray data 32
  let calls ← readU64 data
  let value ← readU64 data
  return { allowedCallback, calls, value }

structure Increment where
  helperState : AccountInfo
  callbackAuthority : AccountInfo
  remainingAccounts : List AccountInfo

def encodeProbeReturnData (calls value : UInt64) : List UInt8 :=
  probeReturnMagic ++ (u64LeBytes calls).toList ++ (u64LeBytes value).toList

def applyIncrement (state : HelperState) (amount : UInt64) : Except ProbeError HelperState := do
  let calls ← okOr (checkedAdd state.calls 1) .arithmeticOverflow
  let value ← okOr (checkedAdd state.value amount) .arithmeticOverflow
  return { state with calls, value }

section

variable {σ : Type} (L : Ledger σ)

def handleInitialize (infos : List AccountInfo) (allowedCallback : Pubkey) :
    Except (ProgramError ProbeError) Outcome := do
  let (helperState, infos) ← nextAccount infos
  let (payer, infos) ← nextAccount infos
  loadSigner payer
  let (system, infos) ← nextAccount infos
  loadSystemProgram L system
  createAccount L payer helperState false
  require (payer.isWritable = true) (.anchor .constraintMut)
  require (infos = []) (.program .unexpectedAccount)
  require (allowedCallback ≠ Bytes.zero 32) (.program .invalidCallback)
  require (allowedCallback ≠ helperState.key) (.program .invalidCallback)
  require (allowedCallback ≠ ID) (.program .invalidCallback)
  let state : HelperState := { allowedCallback, calls := 0, value := 0 }
  return { helper := none, stored := [(helperState.key, state.trySerialize)], returned := none }

/-- The accounts of an increment and the state in the first. -/
def loadIncrement (infos : List AccountInfo) :
    Except (ProgramError ProbeError) (Increment × HelperState) := do
  let (helperState, infos) ← nextAccount infos
  let state ← loadAccount L ID helperStateDiscriminator readHelperState helperState.key
  let (callbackAuthority, infos) ← nextAccount infos
  require (helperState.isWritable = true) (.anchor .constraintMut)
  return (⟨helperState, callbackAuthority, infos⟩, state)

def validateIncrement (a : Increment) (state : HelperState) (amount : UInt64) :
    Except ProbeError Unit := do
  require (a.remainingAccounts = []) .unexpectedAccount
  require (0 < amount) .invalidAmount
  require (a.callbackAuthority.key = state.allowedCallback) .invalidCallback
  require (a.callbackAuthority.isSigner = true) .callbackNotSigner
  require (a.callbackAuthority.isWritable = false) .callbackWritable
  require ((L a.callbackAuthority.key).executable = false) .callbackExecutable
  require (a.callbackAuthority.key ≠ a.helperState.key) .invalidCallback

def handleIncrement (infos : List AccountInfo) (amount : UInt64) :
    Except (ProgramError ProbeError) Outcome := do
  let (a, state) ← loadIncrement L infos
  (validateIncrement L a state amount).mapError .program
  let next ← (applyIncrement state amount).mapError .program
  return {
    helper := none
    stored := [(a.helperState.key, writeBack L a.helperState.key next.trySerialize)]
    returned := some (encodeProbeReturnData next.calls next.value) }

/-- Fails after the state was written, which the runtime takes back. -/
def handleIncrementAndFail (infos : List AccountInfo) (amount : UInt64) :
    Except (ProgramError ProbeError) Outcome := do
  let _ ← handleIncrement L infos amount
  .error (.program .deliberateFailure)

def entry (infos : List AccountInfo) (data : List UInt8) :
    Except (ProgramError ProbeError) Outcome :=
  let rest := data.drop 8
  if data.take 8 = initializeDiscriminator.toList then do
    let allowedCallback ← readArguments (readArray rest 32)
    handleInitialize L infos allowedCallback
  else if data.take 8 = incrementDiscriminator.toList then do
    let amount ← readArguments (readU64 rest)
    handleIncrement L infos amount
  else if data.take 8 = incrementAndFailDiscriminator.toList then do
    let amount ← readArguments (readU64 rest)
    handleIncrementAndFail L infos amount
  else .error .instructionFallbackNotFound

end

section Cases

variable {σ : Type} {L : Ledger σ} {infos : List AccountInfo} {data : List UInt8} {o : Outcome}

theorem applyIncrement_ok_iff {state next : HelperState} {amount : UInt64} :
    applyIncrement state amount = .ok next ↔ next.allowedCallback = state.allowedCallback ∧
      next.calls.toNat = state.calls.toNat + 1 ∧
      next.value.toNat = state.value.toNat + amount.toNat := by
  unfold applyIncrement
  simp only [except_bind_ok_iff, okOr_ok_iff, checkedAdd_eq_some, except_pure_ok_iff]
  constructor
  · rintro ⟨calls, hcalls, value, hvalue, rfl⟩
    exact ⟨rfl, hcalls, hvalue⟩
  · rintro ⟨hallowed, hcalls, hvalue⟩
    refine ⟨next.calls, hcalls, next.value, hvalue, ?_⟩
    cases next
    cases hallowed
    rfl

/-- An increment: the callback the state names has signed, and the counters move. -/
structure Incremented (L : Ledger σ) (infos : List AccountInfo) (amount : UInt64)
    (helperState callback : AccountInfo) (state next : HelperState) (o : Outcome) : Prop where
  accounts : infos = [helperState, callback]
  loaded : loadAccount L ID helperStateDiscriminator readHelperState helperState.key =
    (.ok state : Except (ProgramError ProbeError) HelperState)
  allowed : callback.key = state.allowedCallback
  signed : callback.isSigner = true
  positive : 0 < amount
  applied : applyIncrement state amount = .ok next
  outcome : o = ⟨none, [(helperState.key, writeBack L helperState.key next.trySerialize)],
    some (encodeProbeReturnData next.calls next.value)⟩

theorem handleIncrement_ok {amount : UInt64} (h : handleIncrement L infos amount = .ok o) :
    ∃ helperState callback state next,
      Incremented L infos amount helperState callback state next o := by
  unfold handleIncrement loadIncrement validateIncrement at h
  simp only [except_bind_ok_iff, Prod.exists, mapError_ok_iff, require_ok_iff, except_pure_ok_iff,
    Prod.mk.injEq] at h
  obtain ⟨a, state, ⟨helperState, infos₁, hfirst, _, hload, callback, infos₂, hsecond, _, -, rfl, rfl⟩,
    _, ⟨_, hrest, _, hamount, _, hallowed, _, hsigned, _, -, _, -, -⟩, next, hnext, rfl⟩ := h
  refine ⟨helperState, callback, _, next, ?_, hload, hallowed, hsigned, hamount, hnext, rfl⟩
  rw [nextAccount_ok hfirst, nextAccount_ok hsecond]
  exact congrArg (helperState :: callback :: ·) hrest

theorem entry_helper (h : entry L infos data = .ok o) : o.helper = none := by
  unfold entry at h
  extract_lets rest at h
  split at h
  · obtain ⟨allowedCallback, -, h⟩ := except_bind_ok_iff.mp h
    unfold handleInitialize at h
    simp only [except_bind_ok_iff, except_pure_ok_iff, Prod.exists] at h
    obtain ⟨_, _, -, _, _, -, _, -, _, _, -, _, -, _, -, _, -, _, -, _, -, _, -, _, -, rfl⟩ := h
    rfl
  · split at h
    · obtain ⟨amount, -, h⟩ := except_bind_ok_iff.mp h
      obtain ⟨_, _, _, _, hincremented⟩ := handleIncrement_ok h
      rw [hincremented.outcome]
    · split at h
      · obtain ⟨amount, -, h⟩ := except_bind_ok_iff.mp h
        unfold handleIncrementAndFail at h
        obtain ⟨_, -, h⟩ := except_bind_ok_iff.mp h
        cases h
      · cases h

private theorem initialize_ne_increment :
    ¬ incrementDiscriminator.toList = initializeDiscriminator.toList := by decide

private theorem entry_increment {amount : UInt64} (h : entry L infos data = .ok o)
    (hdata : data.take 8 = incrementDiscriminator.toList)
    (hamount : (readU64 (ε := Empty) (data.drop 8)).decode = .ok amount) :
    handleIncrement L infos amount = .ok o := by
  unfold entry at h
  simp only at h
  rw [hdata, if_neg initialize_ne_increment, if_pos rfl] at h
  obtain ⟨amount', hread, h⟩ := except_bind_ok_iff.mp h
  rw [readArguments, hamount] at hread
  cases hread
  exact h

/-- The engine's call is an increment by the amount and the callback it names. -/
theorem entry_called {ix : Instruction} {key callbackAuthority : Pubkey} {amount : UInt64}
    (haccounts : ix.accounts = [.new key false, .newReadonly callbackAuthority true])
    (hdata : ix.data = helperIncrementDiscriminator ++ (u64LeBytes amount).toList)
    (h : entry L ix.presented ix.data = .ok o) :
    ∃ helperState callback state next,
      Incremented L ix.presented amount helperState callback state next o ∧
      callback.key = callbackAuthority := by
  have hread : (readU64 (ε := Empty) (u64LeBytes amount).toList).decode = .ok amount := by
    have hlen := Bytes.length_toList (u64LeBytes amount)
    exact (Codec.u64.decode_eq_ok_iff hlen).mpr ⟨trivial, rfl⟩
  have htake : ix.data.take 8 = incrementDiscriminator.toList := by
    rw [hdata]
    exact List.take_left' rfl
  have hdrop : ix.data.drop 8 = (u64LeBytes amount).toList := by
    rw [hdata]
    exact List.drop_left' rfl
  rw [← hdrop] at hread
  obtain ⟨helperState, callback, state, next, hincremented⟩ :=
    handleIncrement_ok (entry_increment h htake hread)
  refine ⟨helperState, callback, state, next, hincremented, ?_⟩
  have hkeys : ix.presented.map AccountInfo.key = [key, callbackAuthority] := by
    unfold Instruction.presented
    rw [haccounts]
    rfl
  rw [hincremented.accounts] at hkeys
  simp only [List.map_cons, List.map_nil, List.cons.injEq] at hkeys
  exact hkeys.2.1

end Cases

end ProgrammableSolana.Engines.CallbackProbe
