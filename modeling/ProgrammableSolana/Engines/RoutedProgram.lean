import ProgrammableSolana.Engines.Program
import ProgrammableSolana.Engines.RoutedAnswer

/-! The routed engine as a whole program: next to its phase entrypoints the two instructions with
which its state is created and its mode is set. -/
namespace ProgrammableSolana.Engines.RoutedPlan

open ProgrammableSolana.Lib ProgrammableSolana.Solana ProgrammableSolana.Engines
open ProgrammableSolana.Wire.Routed (EngineRequest timingSingle timingPrepareCommit phaseTransition
  phasePrepare phaseCommit)

def initializeDiscriminator : Bytes 8 := ⟨[175, 175, 109, 31, 13, 152, 155, 237], rfl⟩

def setModeDiscriminator : Bytes 8 := ⟨[159, 47, 147, 247, 85, 53, 84, 230], rfl⟩

structure InitializeArgs where
  market : Pubkey
  revision : UInt64
  lpFeeBps : UInt16
  timingMode : UInt8

def readInitializeArgs (data : List UInt8) : Reader Empty InitializeArgs := do
  let market ← readArray data 32
  let revision ← readU64 data
  let lpFeeBps ← readU16 data
  let timingMode ← readU8 data
  return { market, revision, lpFeeBps, timingMode }

/-- What `initialize` asks of its arguments. -/
structure InitializeArgs.Valid (args : InitializeArgs) : Prop where
  market : args.market ≠ Bytes.zero 32
  revision : args.revision ≠ 0
  lpFeeBps : args.lpFeeBps.toNat < basisPointsDenominator
  timingMode : args.timingMode = timingSingle ∨ args.timingMode = timingPrepareCommit

structure Initialize where
  engineState : AccountInfo
  authority : AccountInfo
  remainingAccounts : List AccountInfo

structure SetMode where
  engineState : AccountInfo
  authority : AccountInfo
  remainingAccounts : List AccountInfo

def validateConfiguredTimingMode (timingMode : UInt8) : EngineResult Unit :=
  require (timingMode = timingSingle ∨ timingMode = timingPrepareCommit) .invalidTimingMode

/-- The state `initialize` writes. -/
def newEngineState (authority : Pubkey) (args : InitializeArgs) : EngineState where
  authority := authority
  market := args.market
  revision := args.revision
  lpFeeBps := args.lpFeeBps
  timingMode := args.timingMode
  sequence := 0
  lastIntentDigest := Bytes.zero 32
  lastPhaseContextDigest := Bytes.zero 32
  lastExecutionDigest := Bytes.zero 32
  lastAmountOut := 0
  lastPhase := noCompletedPhase
  mode := modeAccept

section

variable {σ : Type} (L : Ledger σ)

/-- The accounts of `initialize`, the state account created among them. -/
def loadInitialize (infos : List AccountInfo) : Except (ProgramError EngineError) Initialize := do
  let (engineState, infos) ← nextAccount infos
  let (authority, infos) ← nextAccount infos
  loadSigner authority
  let (system, infos) ← nextAccount infos
  loadSystemProgram L system
  createAccount L authority engineState false
  require (authority.isWritable = true) (.anchor .constraintMut)
  return ⟨engineState, authority, infos⟩

def handleInitialize (infos : List AccountInfo) (args : InitializeArgs) :
    Except (ProgramError EngineError) Outcome := do
  let a ← loadInitialize L infos
  require (a.remainingAccounts = []) (.program .unexpectedAccount)
  require (args.market ≠ Bytes.zero 32) (.program .invalidMarket)
  require (args.revision ≠ 0) (.program .invalidRevision)
  require (args.lpFeeBps.toNat < basisPointsDenominator) (.program .invalidLpFeeBps)
  (validateConfiguredTimingMode args.timingMode).mapError .program
  return {
    helper := none
    stored := [(a.engineState.key, (newEngineState a.authority.key args).trySerialize)]
    returned := none }

/-- The accounts of `set_mode` and the state in the first. -/
def loadSetMode (infos : List AccountInfo) :
    Except (ProgramError EngineError) (SetMode × EngineState) := do
  let (engineState, infos) ← nextAccount infos
  let state ← loadAccount L ID engineStateDiscriminator readEngineState engineState.key
  let (authority, infos) ← nextAccount infos
  loadSigner authority
  require (engineState.isWritable = true) (.anchor .constraintMut)
  require (state.authority = authority.key) (.program .invalidAuthority)
  return (⟨engineState, authority, infos⟩, state)

def handleSetMode (infos : List AccountInfo) (mode : UInt8) :
    Except (ProgramError EngineError) Outcome := do
  let (a, state) ← loadSetMode L infos
  require (a.remainingAccounts = []) (.program .unexpectedAccount)
  require (isSupportedMode mode) (.program .invalidMode)
  return {
    helper := none
    stored := [(a.engineState.key,
      writeBack L a.engineState.key { state with mode }.trySerialize)]
    returned := none }

variable [Crypto]

/-- What an evaluation comes to, its state encoded. -/
def Evaluation.outcome (e : Evaluation) : Outcome where
  helper := e.helper
  stored := e.stored.toList.map fun p => (p.1, p.2.trySerialize)
  returned := e.returned

/-- The dispatch to the five instructions. -/
def entry (infos : List AccountInfo) (data : List UInt8) :
    Except (ProgramError EngineError) Outcome :=
  let rest := data.drop 8
  if data.take 8 = initializeDiscriminator.toList then do
    let args ← readArguments (readInitializeArgs rest)
    handleInitialize L infos args
  else if data.take 8 = setModeDiscriminator.toList then do
    let mode ← readArguments (readU8 rest)
    handleSetMode L infos mode
  else do
    let e ← (process L infos data).mapError .program
    return e.outcome

end

section Cases

variable {σ : Type} {L : Ledger σ} {infos : List AccountInfo} {data : List UInt8} {o : Outcome}

theorem handleInitialize_ok {args : InitializeArgs} (h : handleInitialize L infos args = .ok o) :
    ∃ key authority, (L key).Unallocated ∧ args.Valid ∧
      o = ⟨none, [(key, (newEngineState authority args).trySerialize)], none⟩ := by
  unfold handleInitialize loadInitialize createAccount validateConfiguredTimingMode at h
  simp only [except_bind_ok_iff, require_ok_iff, mapError_ok_iff, except_pure_ok_iff,
    Prod.exists] at h
  obtain ⟨a, ⟨engineState, _, -, authority, _, -, _, -, _, _, -, _, -, _, ⟨_, -, _, -, hfree⟩, _, -,
    rfl⟩, _, -, _, hmarket, _, hrevision, _, hfee, _, htiming, rfl⟩ := h
  exact ⟨engineState.key, authority.key, hfree, ⟨hmarket, hrevision, hfee, htiming⟩, rfl⟩

theorem handleSetMode_ok {mode : UInt8} (h : handleSetMode L infos mode = .ok o) :
    ∃ key state, ∃ authority : AccountInfo, loadAccount L ID engineStateDiscriminator readEngineState key =
        (.ok state : Except (ProgramError EngineError) EngineState) ∧ isSupportedMode mode ∧
      authority.isSigner = true ∧ state.authority = authority.key ∧
      o = ⟨none, [(key, writeBack L key { state with mode }.trySerialize)], none⟩ := by
  unfold handleSetMode loadSetMode loadSigner at h
  simp only [except_bind_ok_iff, require_ok_iff, except_pure_ok_iff, Prod.exists,
    Prod.mk.injEq] at h
  obtain ⟨a, state, ⟨engineState, _, -, _, hload, authority, _, -, _, hsigner, _, -, _, hauthority,
    rfl, rfl⟩, _, -, _, hmode, rfl⟩ := h
  exact ⟨engineState.key, _, authority, hload, hmode, hsigner, hauthority, rfl⟩

/-- What an instruction other than a phase does. -/
inductive Managed (L : Ledger σ) (o : Outcome) : Prop
  | created (key authority : Pubkey) (args : InitializeArgs) (hargs : args.Valid)
      (hfree : (L key).Unallocated)
      (ho : o = ⟨none, [(key, (newEngineState authority args).trySerialize)], none⟩)
  | modeSet (key : Pubkey) (state : EngineState) (mode : UInt8) (hmode : isSupportedMode mode)
      (hload : loadAccount L ID engineStateDiscriminator readEngineState key =
        (.ok state : Except (ProgramError EngineError) EngineState))
      (ho : o = ⟨none, [(key, writeBack L key { state with mode }.trySerialize)], none⟩)

theorem entry_ok [Crypto] (h : entry L infos data = .ok o) :
    Managed L o ∨ ∃ e, process L infos data = .ok e ∧ o = e.outcome := by
  unfold entry at h
  simp only at h
  split at h
  · obtain ⟨args, -, h⟩ := except_bind_ok_iff.mp h
    obtain ⟨key, authority, hfree, hargs, ho⟩ := handleInitialize_ok h
    exact .inl (.created key authority args hargs hfree ho)
  · split at h
    · obtain ⟨mode, -, h⟩ := except_bind_ok_iff.mp h
      obtain ⟨key, state, authority, hload, hmode, -, -, ho⟩ := handleSetMode_ok h
      exact .inl (.modeSet key state mode hmode hload ho)
    · simp only [except_bind_ok_iff, mapError_ok_iff, except_pure_ok_iff] at h
      obtain ⟨e, he, rfl⟩ := h
      exact .inr ⟨e, he, rfl⟩

theorem Managed.helper (h : Managed L o) : o.helper = none := by
  cases h with
  | created _ _ _ _ _ ho => rw [ho]
  | modeSet _ _ _ _ _ ho => rw [ho]

end Cases

section States

variable {σ : Type} {L L' : Ledger σ} {key : Pubkey} {s : EngineState} {o : Outcome}

/-- The state at an address, if there is one. -/
def state? (L : Ledger σ) (key : Pubkey) : Option EngineState := (loadEngineState L key).toOption

private theorem trySerialize_length (s : EngineState) : s.trySerialize.length = engineStateLen := by
  rw [trySerialize_eq]
  exact engineStateCodec.length_enc s

private theorem trySerialize_tag (s : EngineState) :
    engineStateDiscriminator.toList <+: s.trySerialize := by
  unfold EngineState.trySerialize
  rw [List.flatten_cons]
  exact List.prefix_append _ _

theorem state?_of_load (h : loadEngineState L key = .ok s) : state? L key = some s := by
  unfold state?
  rw [h]
  rfl

theorem state?_eq_some : state? L key = some s ↔
    (L key).owner = ID ∧ (L key).data = .raw s.trySerialize := by
  unfold state? loadEngineState
  rw [toOption_eq_some_iff]
  simp only [except_bind_ok_iff, require_ok_iff]
  constructor
  · intro h
    obtain ⟨_, howner, h⟩ := h
    refine ⟨howner, ?_⟩
    cases hdata : (L key).data with
    | raw data =>
      simp only [hdata, except_bind_ok_iff, require_ok_iff, mapError_ok_iff] at h
      obtain ⟨_, hlen, hread⟩ := h
      rw [readEngineState_eq, engineStateCodec.decode_eq_ok_iff hlen, ← trySerialize_eq] at hread
      rw [hread.2]
    | mint m => simp [hdata] at h
    | token t => simp [hdata] at h
    | state x => simp [hdata] at h
  · intro h
    obtain ⟨howner, hdata⟩ := h
    have hlen := trySerialize_length s
    refine ⟨(), howner, ?_⟩
    simp only [hdata, except_bind_ok_iff, require_ok_iff, mapError_ok_iff]
    refine ⟨(), hlen, ?_⟩
    rw [readEngineState_eq, engineStateCodec.decode_eq_ok_iff hlen]
    exact ⟨engineStateCodec_valid s, trySerialize_eq s⟩

theorem state?_congr (h : L' key = L key) : state? L' key = state? L key := by
  unfold state?
  rw [loadEngineState_congr h]

/-- What spares the engine's accounts leaves its states as they are, and makes none. -/
theorem state?_of_spared (h : Spared ID L L') : state? L' key = state? L key := by
  have hblank : ¬ Zeroed engineStateDiscriminator.toList := by decide
  ext s
  constructor
  · intro hs
    obtain ⟨howner, hdata⟩ := state?_eq_some.mp hs
    rcases h.fresh key howner with hsame | hfresh
    · rwa [← state?_congr hsame]
    · exact absurd hfresh (not_blank_of_tag hblank hdata (trySerialize_tag s))
  · intro hs
    obtain ⟨howner, -⟩ := state?_eq_some.mp hs
    rwa [state?_congr (h.kept key howner)]

theorem state?_assign (L : Ledger σ) (key : Pubkey) (s : EngineState) :
    state? (L.assign key ID (.raw s.trySerialize)) key = some s :=
  state?_of_load (loadEngineState_stored (Ledger.assign_self key ID _))

private theorem loadAccount_engineState_iff :
    loadAccount L ID engineStateDiscriminator readEngineState key =
        (.ok s : Except (ProgramError EngineError) EngineState) ↔
      (L key).owner = ID ∧ ∃ rest, (L key).data = .raw (s.trySerialize ++ rest) := by
  have hread : readEngineState = engineStateCodec.read := funext readEngineState_eq
  have hsystem : ID ≠ systemProgram := by decide
  rw [hread, trySerialize_eq]
  apply loadAccount_ok_iff engineStateCodec_valid _ hsystem
  intro a
  rw [← trySerialize_eq]
  exact trySerialize_tag a

/-- What an instruction other than a phase makes of the state at an address. -/
inductive Managing : Option EngineState → Option EngineState → Prop
  | same (x : Option EngineState) : Managing x x
  | created (authority : Pubkey) (args : InitializeArgs) (hargs : args.Valid) :
      Managing none (some (newEngineState authority args))
  | modeSet (s : EngineState) (mode : UInt8) (hmode : isSupportedMode mode) :
      Managing (some s) (some { s with mode })

private theorem modeSet_managing {k : Pubkey} {mode : UInt8} (hmode : isSupportedMode mode)
    (hload : loadAccount L ID engineStateDiscriminator readEngineState k =
      (.ok s : Except (ProgramError EngineError) EngineState)) :
    Managing (state? L k) (state? (L.assign k ID (.raw (writeBack L k { s with mode }.trySerialize)))
      k) := by
  obtain ⟨howner, rest, hdata⟩ := loadAccount_engineState_iff.mp hload
  have hlen : ({ s with mode } : EngineState).trySerialize.length = s.trySerialize.length := by
    rw [trySerialize_length, trySerialize_length]
  rw [writeBack_eq hdata hlen]
  cases rest with
  | nil =>
    rw [List.append_nil] at hdata ⊢
    rw [state?_assign, state?_eq_some.mpr ⟨howner, hdata⟩]
    exact .modeSet s mode hmode
  | cons b rest =>
    have hnone : ∀ (L : Ledger σ) (x : EngineState),
        (L k).data = .raw (x.trySerialize ++ b :: rest) → state? L k = none := by
      intro L x hx
      apply Option.eq_none_iff_forall_not_mem.mpr
      intro y hy
      obtain ⟨-, hy⟩ := state?_eq_some.mp hy
      have hraw := AccountData.raw.inj (hx.symm.trans hy)
      have hlength := congrArg List.length hraw
      rw [List.length_append, trySerialize_length, trySerialize_length, List.length_cons] at hlength
      omega
    rw [hnone L s hdata, hnone _ { s with mode } (by rw [Ledger.assign_self])]
    exact .same none

theorem Managed.managing (h : Managed L o) (key : Pubkey) :
    Managing (state? L key) (state? (o.store L ID) key) := by
  have helse : ∀ k bytes, o.stored = [(k, bytes)] → key ≠ k →
      Managing (state? L key) (state? (o.store L ID) key) := by
    intro k bytes hstored hne
    rw [Outcome.store_single hstored, state?_congr (Ledger.assign_of_ne hne _ _)]
    exact .same _
  cases h with
  | created k authority args hargs hfree ho =>
    by_cases hk : key = k
    · subst hk
      have hnone : state? L key = none := by
        apply Option.eq_none_iff_forall_not_mem.mpr
        intro s hs
        obtain ⟨howner, -⟩ := state?_eq_some.mp hs
        rw [hfree.1] at howner
        exact absurd howner (by decide)
      rw [Outcome.store_single (by rw [ho]), hnone, state?_assign]
      exact .created authority args hargs
    · exact helse k _ (by rw [ho]) hk
  | modeSet k s mode hmode hload ho =>
    by_cases hk : key = k
    · subst hk
      rw [Outcome.store_single (by rw [ho])]
      exact modeSet_managing hmode hload
    · exact helse k _ (by rw [ho]) hk

end States

section Evaluations

variable [Crypto] {σ : Type} {L : Ledger σ} {infos : List AccountInfo} {data : List UInt8}
  {e : Evaluation}

/-- The callback of an authenticated phase has signed, and its state account is no program. -/
theorem Authenticated.privileged {accounts : EvaluatePhase} {opaqueAccounts : List AccountInfo}
    {phase : UInt8} {request : EngineRequest} {state : EngineState}
    (h : Authenticated L accounts opaqueAccounts phase request state) :
    accounts.callbackAuthority.isSigner = true ∧
      (L accounts.engineState.key).executable = false := by
  have hprivileges := h.privileges
  unfold validateFixedAccountPrivileges at hprivileges
  simp only [except_bind_ok_iff, require_ok_iff] at hprivileges
  obtain ⟨_, hexecutable, _, -, _, ⟨hsigner, -⟩, -⟩ := hprivileges
  exact ⟨hsigner, hexecutable⟩

/-- What a phase entrypoint comes to, in any mode: PREPARE stores nothing and calls nothing, the
other phases advance the state. -/
structure Evaluates (L : Ledger σ) (engineState callback : AccountInfo)
    (opaqueAccounts : List AccountInfo) (request : EngineRequest) (state : EngineState)
    (amountOut stateSequence : UInt64) (e : Evaluation) : Prop where
  authenticated : Authenticated L ⟨engineState, callback⟩ opaqueAccounts request.binding.phase
    request state
  returned : emitReceipt state.mode (receiptOf request amountOut stateSequence) = .ok e.returned
  outcome : if request.binding.phase = phasePrepare then e.helper = none ∧ e.stored = none
    else ∃ next, advance state request amountOut = .ok next ∧
      e.stored = some (engineState.key, next) ∧
      helperInstruction L (request.binding.payload.toList.take request.binding.payloadLen.toNat)
        opaqueAccounts engineState.key callback.key = .ok e.helper

theorem evaluatePhase_ok {accounts : EvaluatePhase} {opaqueAccounts : List AccountInfo}
    {phase : UInt8} {request : EngineRequest} {encoded : List UInt8}
    (hencode : Wire.Routed.encodeEngineRequest request = .ok encoded)
    (h : evaluatePhase L accounts opaqueAccounts phase encoded = .ok e) :
    request.binding.phase = phase ∧ ∃ state amountOut stateSequence,
      Evaluates L accounts.engineState accounts.callbackAuthority opaqueAccounts request state
        amountOut stateSequence e := by
  unfold evaluatePhase at h
  simp only [except_bind_ok_iff, Prod.exists, authenticatePhase_ok_iff hencode] at h
  obtain ⟨r, state, ⟨rfl, hauth⟩, q, -, h⟩ := h
  have hphase := hauth.phase
  subst hphase
  refine ⟨rfl, state, ?_⟩
  split at h
  · next hprepare =>
    simp only [except_bind_ok_iff, except_pure_ok_iff] at h
    obtain ⟨returned, hreturned, rfl⟩ := h
    refine ⟨_, _, hauth, hreturned, ?_⟩
    rw [if_pos hprepare]
    exact ⟨rfl, rfl⟩
  · next hprepare =>
    simp only [except_bind_ok_iff, require_ok_iff, except_pure_ok_iff] at h
    obtain ⟨helper, hhelper, next, hnext, _, -, returned, hreturned, rfl⟩ := h
    refine ⟨_, _, hauth, hreturned, ?_⟩
    rw [if_neg hprepare]
    exact ⟨next, hnext, rfl, hhelper⟩

private theorem process_dispatched (h : process L infos data = .ok e) :
    ∃ phase engineState callback opaqueAccounts, infos = engineState :: callback :: opaqueAccounts ∧
      evaluatePhase L ⟨engineState, callback⟩ opaqueAccounts phase
        ((data.drop 8).take Wire.Routed.engineRequestLen) = .ok e := by
  unfold process at h
  extract_lets dispatch at h
  have hphase : ∃ phase, dispatch phase = .ok e := by
    split at h
    · exact ⟨phaseTransition, h⟩
    · split at h
      · exact ⟨phasePrepare, h⟩
      · split at h
        · exact ⟨phaseCommit, h⟩
        · cases h
  obtain ⟨phase, hphase⟩ := hphase
  obtain ⟨_, -, hread⟩ := except_bind_ok_iff.mp hphase
  split at hread
  · next engineState callback opaqueAccounts =>
    exact ⟨phase, engineState, callback, opaqueAccounts, rfl, hread⟩
  · cases hread

theorem process_ok (h : process L infos data = .ok e) :
    ∃ engineState callback opaqueAccounts request state amountOut stateSequence,
      infos = engineState :: callback :: opaqueAccounts ∧
      Wire.Routed.decodeEngineRequest ((data.drop 8).take Wire.Routed.engineRequestLen) =
        .ok request ∧
      Evaluates L engineState callback opaqueAccounts request state amountOut stateSequence e := by
  obtain ⟨phase, engineState, callback, opaqueAccounts, hinfos, h⟩ := process_dispatched h
  have hdecoded : ∃ request, Wire.Routed.decodeEngineRequest
      ((data.drop 8).take Wire.Routed.engineRequestLen) = .ok request := by
    unfold evaluatePhase authenticatePhase at h
    simp only [except_bind_ok_iff, mapError_ok_iff] at h
    obtain ⟨_, ⟨request, hrequest, -⟩, -⟩ := h
    exact ⟨request, hrequest⟩
  obtain ⟨request, hrequest⟩ := hdecoded
  obtain ⟨-, state, amountOut, stateSequence, hevaluates⟩ :=
    evaluatePhase_ok (Wire.Routed.decodeEngineRequest_ok_iff.mp hrequest) h
  exact ⟨engineState, callback, opaqueAccounts, request, state, amountOut, stateSequence, hinfos,
    hrequest, hevaluates⟩

theorem decode_of_encoded {request : EngineRequest}
    (h : Wire.Routed.encodeEngineInstruction request = .ok data) :
    Wire.Routed.decodeEngineRequest ((data.drop 8).take Wire.Routed.engineRequestLen) =
      .ok request := by
  obtain ⟨encoded, discriminator, hencode, -, rfl⟩ :=
    Wire.Routed.encodeEngineInstruction_ok_iff.mp h
  have hlen := Wire.Routed.encodeEngineRequest_length hencode
  rw [List.drop_left' (by simp), List.take_of_length_le hlen.le]
  exact Wire.Routed.decodeEngineRequest_ok_iff.mpr hencode

/-- An encoded call is neither of the instructions that manage a state account: it evaluates the
request it carries. -/
theorem entry_encoded_ok {request : EngineRequest} {o : Outcome}
    (hdata : Wire.Routed.encodeEngineInstruction request = .ok data)
    (h : entry L infos data = .ok o) :
    ∃ e engineState callback opaqueAccounts state amountOut stateSequence,
      infos = engineState :: callback :: opaqueAccounts ∧
      Evaluates L engineState callback opaqueAccounts request state amountOut stateSequence e ∧
      o = e.outcome := by
  have hcarried := decode_of_encoded hdata
  obtain ⟨encoded, discriminator, -, hdiscriminator, rfl⟩ :=
    Wire.Routed.encodeEngineInstruction_ok_iff.mp hdata
  have htake : (discriminator.toList ++ encoded).take 8 = discriminator.toList := by
    rw [List.take_left' (by simp)]
  have hmanaging : ¬ discriminator.toList = initializeDiscriminator.toList ∧
      ¬ discriminator.toList = setModeDiscriminator.toList := by
    rw [Wire.Routed.enginePhaseDiscriminator_ok_iff] at hdiscriminator
    rcases hdiscriminator with ⟨-, rfl⟩ | ⟨-, rfl⟩ | ⟨-, rfl⟩ <;> exact ⟨by decide, by decide⟩
  unfold entry at h
  simp only [htake] at h
  rw [if_neg hmanaging.1, if_neg hmanaging.2] at h
  simp only [except_bind_ok_iff, mapError_ok_iff, except_pure_ok_iff] at h
  obtain ⟨e, hprocess, rfl⟩ := h
  obtain ⟨engineState, callback, opaqueAccounts, request', state, amountOut, stateSequence, hinfos,
    hdecode, hevaluates⟩ := process_ok hprocess
  have hrequest : request' = request := Except.ok.inj (hdecode.symm.trans hcarried)
  rw [hrequest] at hevaluates
  exact ⟨e, engineState, callback, opaqueAccounts, state, amountOut, stateSequence, hinfos,
    hevaluates, rfl⟩

theorem entry_of_process (h : process L infos data = .ok e) :
    entry L infos data = .ok e.outcome := by
  have hphase : ∀ d : Bytes 8, d.toList ≠ Wire.Routed.engineTransitionDiscriminator.toList →
      d.toList ≠ Wire.Routed.enginePrepareDiscriminator.toList →
      d.toList ≠ Wire.Routed.engineCommitDiscriminator.toList → ¬ data.take 8 = d.toList := by
    intro d htransition hprepare hcommit hd
    unfold process at h
    simp only [hd] at h
    rw [if_neg htransition, if_neg hprepare, if_neg hcommit] at h
    cases h
  unfold entry
  simp only
  rw [if_neg (hphase initializeDiscriminator (by decide) (by decide) (by decide)),
    if_neg (hphase setModeDiscriminator (by decide) (by decide) (by decide)), h]
  rfl

/-- The only program an evaluation calls is the helper, which it asks, by the callback it was called
with, to add the amount in the payload. -/
theorem Evaluates.helperCall {engineState callback : AccountInfo}
    {opaqueAccounts : List AccountInfo} {request : EngineRequest} {state : EngineState}
    {amountOut stateSequence : UInt64}
    (h : Evaluates L engineState callback opaqueAccounts request state amountOut stateSequence e)
    {call : Instruction} (hcall : e.helper = some call) :
    call.programId = disposableHelperProgramId ∧ ∃ helperState amount,
      call.accounts = [.new helperState false, .newReadonly callback.key true] ∧
      helperAmount (request.binding.payload.toList.take request.binding.payloadLen.toNat) =
        .ok amount ∧
      call.data = helperIncrementDiscriminator ++ (u64LeBytes amount).toList := by
  have houtcome := h.outcome
  split at houtcome
  · rw [houtcome.1] at hcall
    cases hcall
  · obtain ⟨_, -, -, hhelper⟩ := houtcome
    rw [hcall] at hhelper
    unfold helperInstruction at hhelper
    split at hhelper
    · cases hhelper
    · split at hhelper
      · simp only [except_bind_ok_iff, require_ok_iff, except_pure_ok_iff, Option.some.injEq]
          at hhelper
        obtain ⟨_, -, _, -, _, hkey, _, -, _, -, _, -, amount, hamount, rfl⟩ := hhelper
        exact ⟨hkey, _, amount, rfl, hamount, rfl⟩
      · cases hhelper

end Evaluations

section Receipts

open ProgrammableSolana.Wire.Routed (EngineReceipt)

/-- Where a receipt has its length, its magic and its version. -/
theorem encodeReceipt_layout {r : EngineReceipt} {data : List UInt8}
    (h : Wire.Routed.encodeReceipt r = .ok data) : data.length = Wire.Routed.engineReceiptLen ∧
      data[0]? = Wire.Routed.receiptMagic.toList[0]? ∧ data[8]? = some Wire.probeWireVersion := by
  obtain ⟨-, rfl⟩ := Wire.Routed.encodeReceipt_ok_iff.mp h
  exact ⟨Wire.Routed.receiptCodec.length_enc r, rfl, rfl⟩

/-- Whatever the mode, return data that reads as a receipt tells the output of the receipt that was
made out. -/
theorem emitReceipt_read {mode : UInt8} {receipt receipt' : EngineReceipt} {data : List UInt8}
    (h : emitReceipt mode receipt = .ok (some data))
    (hread : Wire.Routed.encodeReceipt receipt' = .ok data) :
    receipt'.amountOut = receipt.amountOut := by
  have hsame : ∀ r : EngineReceipt, Wire.Routed.encodeReceipt r = .ok data → receipt' = r := by
    intro r hr
    have hdecode := Wire.Routed.decodeReceipt_ok_iff.mpr hread
    rw [Wire.Routed.decodeReceipt_ok_iff.mpr hr] at hdecode
    exact (Except.ok.inj hdecode).symm
  obtain ⟨hlen, hmagic, hversion⟩ := encodeReceipt_layout hread
  have hflipped : ∀ {r : EngineReceipt} {encoded : List UInt8},
      Wire.Routed.encodeReceipt r = .ok encoded →
      encoded.modify 0 (· ^^^ 1) ≠ data ∧ encoded.modify 8 (· ^^^ 1) ≠ data := by
    intro r encoded hr
    obtain ⟨-, hmagic', hversion'⟩ := encodeReceipt_layout hr
    constructor
    · rintro rfl
      rw [List.getElem?_modify_eq, hmagic'] at hmagic
      revert hmagic
      decide
    · rintro rfl
      rw [List.getElem?_modify_eq, hversion'] at hversion
      revert hversion
      decide
  unfold emitReceipt at h
  rcases ite_eq_iff.mp h with ⟨-, h⟩ | ⟨-, h⟩
  · cases h
  extract_lets encode flip at h
  obtain ⟨encoded, hencode, h⟩ := except_bind_ok_iff.mp h
  have hencoded := mapError_ok_iff.mp hencode
  obtain ⟨hlen', -, -⟩ := encodeReceipt_layout hencoded
  obtain ⟨hmagic', hversion'⟩ := hflipped hencoded
  have hremade : ∀ {r : EngineReceipt}, (encode r >>= fun bytes => Except.ok (some bytes)) =
      Except.ok (some data) → receipt' = r := by
    intro r hmade
    obtain ⟨_, hr, hdata⟩ := except_bind_ok_iff.mp hmade
    obtain rfl := Option.some.inj (Except.ok.inj hdata)
    exact hsame _ (mapError_ok_iff.mp hr)
  rcases ite_eq_iff.mp h with ⟨-, h⟩ | ⟨-, h⟩
  · obtain rfl := Option.some.inj (Except.ok.inj h)
    rw [hsame _ hencoded]
  rcases ite_eq_iff.mp h with ⟨-, h⟩ | ⟨-, h⟩
  · rw [hremade h]
  rcases ite_eq_iff.mp h with ⟨-, h⟩ | ⟨-, h⟩
  · rw [hremade h]
  rcases ite_eq_iff.mp h with ⟨-, h⟩ | ⟨-, h⟩
  · obtain rfl := Option.some.inj (Except.ok.inj h)
    rw [List.length_dropLast] at hlen
    have hpos : 0 < Wire.Routed.engineReceiptLen := by decide
    omega
  rcases ite_eq_iff.mp h with ⟨-, h⟩ | ⟨-, h⟩
  · exact absurd (Option.some.inj (Except.ok.inj h)) hmagic'
  rcases ite_eq_iff.mp h with ⟨-, h⟩ | ⟨-, h⟩
  · exact absurd (Option.some.inj (Except.ok.inj h)) hversion'
  rcases ite_eq_iff.mp h with ⟨-, h⟩ | ⟨-, h⟩
  · obtain rfl := Option.some.inj (Except.ok.inj h)
    rw [List.length_append] at hlen
    have hone : [(0 : UInt8)].length = 1 := rfl
    omega
  rcases ite_eq_iff.mp h with ⟨-, h⟩ | ⟨-, h⟩
  · rw [hremade h]
  · cases h

end Receipts

end ProgrammableSolana.Engines.RoutedPlan
