import ProgrammableSolana.Engines.RoutedPlan
import ProgrammableSolana.Wire.RoutedCodec

/-! What the reference engine of the routed Core answers each phase with. -/
namespace ProgrammableSolana.Engines.RoutedPlan

open ProgrammableSolana.Lib ProgrammableSolana.Solana ProgrammableSolana.Engines
open ProgrammableSolana.Wire.Routed (EngineRequest EngineReceipt phaseTransition phasePrepare
  phaseCommit)

section State

/-- The layout of a state account. -/
def engineStateCodec : Codec EngineError EngineState :=
  (discriminatorCodec.pair <| (Codec.bytes 32).pair <| (Codec.bytes 32).pair <| Codec.u64.pair <|
    Codec.u16.pair <| Codec.u8.pair <| Codec.u64.pair <| (Codec.bytes 32).pair <|
    (Codec.bytes 32).pair <| (Codec.bytes 32).pair <| Codec.u64.pair <| Codec.u8.pair Codec.u8).map
    (fun (_, authority, market, revision, lpFeeBps, timingMode, sequence, lastIntentDigest,
        lastPhaseContextDigest, lastExecutionDigest, lastAmountOut, lastPhase, mode) =>
      { authority, market, revision, lpFeeBps, timingMode, sequence, lastIntentDigest,
        lastPhaseContextDigest, lastExecutionDigest, lastAmountOut, lastPhase, mode })
    (fun s => ((), s.authority, s.market, s.revision, s.lpFeeBps, s.timingMode, s.sequence,
      s.lastIntentDigest, s.lastPhaseContextDigest, s.lastExecutionDigest, s.lastAmountOut,
      s.lastPhase, s.mode))
    (fun _ => rfl) (fun _ => rfl)

theorem readEngineState_eq (data : List UInt8) :
    readEngineState data = engineStateCodec.read data := by
  simp only [readEngineState, engineStateCodec, discriminatorCodec, Codec.map, Codec.pair,
    Codec.literal, Codec.bytes, Codec.u64, Codec.u16, Codec.u8, bind_assoc, pure_bind, readU64,
    readU16]

theorem engineStateCodec_valid (s : EngineState) : engineStateCodec.Valid s := by
  simp only [engineStateCodec, discriminatorCodec_valid, Codec.map_valid_iff, Codec.pair_valid_iff,
    Codec.bytes_valid, Codec.u64_valid, Codec.u16_valid, Codec.u8_valid, and_self]

theorem trySerialize_eq (s : EngineState) : s.trySerialize = engineStateCodec.enc s := by
  simp only [EngineState.trySerialize, List.flatten_cons, List.flatten_nil, List.append_nil]
  rfl

variable {σ : Type} {L : Ledger σ} {key : Pubkey}

theorem loadEngineState_stored {s : EngineState} {executable : Bool}
    (h : L key = ⟨ID, executable, .raw s.trySerialize⟩) : loadEngineState L key = .ok s := by
  have hlen : s.trySerialize.length = engineStateLen := by
    rw [trySerialize_eq]
    exact engineStateCodec.length_enc s
  have hread : (readEngineState s.trySerialize).decode = .ok s := by
    rw [readEngineState_eq, engineStateCodec.decode_eq_ok_iff hlen]
    exact ⟨engineStateCodec_valid s, trySerialize_eq s⟩
  unfold loadEngineState
  rw [h, require_of rfl, except_ok_bind]
  show (require (s.trySerialize.length = engineStateLen) EngineError.invalidEngineState >>= fun _ =>
    (readEngineState s.trySerialize).decode.mapError fun _ => EngineError.invalidEngineState) = .ok s
  rw [require_of hlen, except_ok_bind, hread]
  rfl

theorem loadEngineState_owner {s : EngineState} (h : loadEngineState L key = .ok s) :
    (L key).owner = ID := by
  unfold loadEngineState at h
  obtain ⟨_, howner, -⟩ := except_bind_ok_iff.mp h
  exact require_ok_iff.mp howner

theorem loadEngineState_congr {L' : Ledger σ} (h : L' key = L key) :
    loadEngineState L' key = loadEngineState L key := by
  unfold loadEngineState
  rw [h]

end State

section Answer

variable [Crypto] {σ : Type} {L : Ledger σ} {accounts : EvaluatePhase}
  {opaqueAccounts : List AccountInfo} {phase : UInt8} {request : EngineRequest}
  {state : EngineState}

/-- What a phase entrypoint checks before it quotes. -/
structure Authenticated (L : Ledger σ) (accounts : EvaluatePhase)
    (opaqueAccounts : List AccountInfo) (phase : UInt8) (request : EngineRequest)
    (state : EngineState) : Prop where
  phase : request.binding.phase = phase
  few : opaqueAccounts.length ≤ maxOpaqueCapabilities
  count : opaqueAccounts.length = request.binding.opaqueAccountCount.toNat
  privileges : validateFixedAccountPrivileges L accounts opaqueAccounts request.binding.phase =
    .ok ()
  loaded : loadEngineState L accounts.engineState.key = .ok state
  supported : isSupportedMode state.mode
  market : state.market = request.binding.market
  revision : state.revision = request.binding.engineRevision
  timing : Wire.Routed.validatePhaseForTiming state.timingMode request.binding.phase = .ok ()
  sequence : state.sequence = request.binding.preSequence
  callback : authenticateCallbackAuthority accounts.engineState.key accounts.callbackAuthority.key
    request.binding = .ok ()
  capability : Wire.Routed.computeCapabilityHash ID
    (capabilityDescriptor L accounts.engineState :: opaqueAccounts.map (capabilityDescriptor L)) =
      .ok request.binding.phaseCapabilityHash
  digest : Wire.Routed.computeExecutionDigest request.binding = .ok request.executionDigest

theorem authenticatePhase_ok_iff {encoded : List UInt8}
    (hencode : Wire.Routed.encodeEngineRequest request = .ok encoded) {r : EngineRequest} :
    authenticatePhase L accounts opaqueAccounts phase encoded = .ok (r, state) ↔
      r = request ∧ Authenticated L accounts opaqueAccounts phase request state := by
  have hdecode := Wire.Routed.decodeEngineRequest_ok_iff.mpr hencode
  unfold authenticatePhase
  simp only [except_bind_ok_iff, require_ok_iff, mapError_ok_iff, hdecode, Except.ok.injEq,
    except_pure_ok_iff, Prod.mk.injEq]
  constructor
  · rintro ⟨r', rfl, _, hphase, _, hfew, _, hcount, _, hprivileges, s, hstate, _, hmode, _, hmarket, _,
      hrevision, _, htiming, _, hsequence, _, hcallback, hash, hhash, _, rfl, digest, hdigest, _, rfl,
      rfl, rfl⟩
    exact ⟨rfl, hphase, hfew, hcount, hprivileges, hstate, hmode, hmarket, hrevision, htiming,
      hsequence, hcallback, hhash, hdigest⟩
  · rintro ⟨rfl, h⟩
    exact ⟨r, rfl, (), h.phase, (), h.few, (), h.count, (), h.privileges, state, h.loaded, (),
      h.supported, (), h.market, (), h.revision, (), h.timing, (), h.sequence, (), h.callback, _,
      h.capability, (), rfl, _, h.digest, (), rfl, rfl, rfl⟩

omit [Crypto] in
theorem modeAmountOut_accept (quoted : UInt64) : modeAmountOut modeAccept quoted = quoted := by
  have hzero : ¬ modeAccept = modeZeroOutput := by decide
  have hoversized : ¬ modeAccept = modeOversizedOutput := by decide
  unfold modeAmountOut
  rw [if_neg hzero, if_neg hoversized]

omit [Crypto] in
theorem emitReceipt_accept_ok_iff {receipt : EngineReceipt} {returned : Option (List UInt8)} :
    emitReceipt modeAccept receipt = .ok returned ↔
      ∃ data, Wire.Routed.encodeReceipt receipt = .ok data ∧ returned = some data := by
  have hmissing : ¬ modeAccept = modeMissingReceipt := by decide
  unfold emitReceipt
  rw [if_neg hmissing]
  simp only [except_bind_ok_iff, mapError_ok_iff, true_or, if_true, except_pure_ok_iff]
  simp only [eq_comm]

/-- The receipt a phase gives at a sequence. -/
def receiptOf (request : EngineRequest) (amountOut stateSequence : UInt64) : EngineReceipt where
  phase := request.binding.phase
  intentDigest := request.binding.intentDigest
  executionDigest := request.executionDigest
  amountOut := amountOut
  stateSequence := stateSequence

/-- What a phase entrypoint of a state in `MODE_ACCEPT` comes to: PREPARE stores nothing and calls
nothing, the other phases advance the state. -/
structure Evaluated (L : Ledger σ) (accounts : EvaluatePhase) (opaqueAccounts : List AccountInfo)
    (phase : UInt8) (request : EngineRequest) (state : EngineState) (quote : CpmmQuote)
    (next : EngineState) (data : List UInt8) (e : Evaluation) : Prop where
  authenticated : Authenticated L accounts opaqueAccounts phase request state
  quoted : quoteExactIn request.binding.accountedInputBefore request.binding.accountedOutputBefore
    request.binding.amountIn state.lpFeeBps = .ok quote
  receipt : Wire.Routed.encodeReceipt (receiptOf request quote.amountOut next.sequence) = .ok data
  returned : e.returned = some data
  outcome : if request.binding.phase = phasePrepare then
      next = state ∧ e.helper = none ∧ e.stored = none
    else advance state request quote.amountOut = .ok next ∧
      e.stored = some (accounts.engineState.key, next) ∧
      helperInstruction L (request.binding.payload.toList.take request.binding.payloadLen.toNat)
        opaqueAccounts accounts.engineState.key accounts.callbackAuthority.key = .ok e.helper

theorem evaluatePhase_ok_iff {encoded : List UInt8} {e : Evaluation}
    (hencode : Wire.Routed.encodeEngineRequest request = .ok encoded)
    (hmode : ∀ s, loadEngineState L accounts.engineState.key = .ok s → s.mode = modeAccept) :
    evaluatePhase L accounts opaqueAccounts phase encoded = .ok e ↔
      ∃ state quote next data,
        Evaluated L accounts opaqueAccounts phase request state quote next data e := by
  have hlate : ¬ modeAccept = modeLateCommitFailure := by decide
  unfold evaluatePhase
  simp only [except_bind_ok_iff, Prod.exists, authenticatePhase_ok_iff hencode]
  constructor
  · rintro ⟨r, state, ⟨rfl, hauth⟩, q, hq, h⟩
    have haccept := hmode state hauth.loaded
    rw [haccept, modeAmountOut_accept] at h
    by_cases hphase : r.binding.phase = phasePrepare
    · rw [if_pos hphase] at h
      simp only [except_bind_ok_iff, except_pure_ok_iff] at h
      obtain ⟨returned, hreturned, rfl⟩ := h
      obtain ⟨data, hdata, rfl⟩ := emitReceipt_accept_ok_iff.mp hreturned
      refine ⟨state, q, state, data, hauth, hq, hdata, rfl, ?_⟩
      rw [if_pos hphase]
      exact ⟨rfl, rfl, rfl⟩
    · rw [if_neg hphase] at h
      simp only [except_bind_ok_iff, require_ok_iff, except_pure_ok_iff] at h
      obtain ⟨helper, hhelper, next, hnext, _, -, returned, hreturned, rfl⟩ := h
      obtain ⟨data, hdata, rfl⟩ := emitReceipt_accept_ok_iff.mp hreturned
      refine ⟨state, q, next, data, hauth, hq, hdata, rfl, ?_⟩
      rw [if_neg hphase]
      exact ⟨hnext, rfl, hhelper⟩
  · rintro ⟨state, q, next, data, h⟩
    have haccept := hmode state h.authenticated.loaded
    refine ⟨request, state, ⟨rfl, h.authenticated⟩, q, h.quoted, ?_⟩
    rw [haccept, modeAmountOut_accept]
    have hreturned := h.returned
    have houtcome := h.outcome
    by_cases hphase : request.binding.phase = phasePrepare
    · rw [if_pos hphase] at houtcome ⊢
      obtain ⟨rfl, hhelper, hstored⟩ := houtcome
      simp only [except_bind_ok_iff, except_pure_ok_iff]
      refine ⟨some data, emitReceipt_accept_ok_iff.mpr ⟨data, h.receipt, rfl⟩, ?_⟩
      cases e
      simp only at hhelper hstored hreturned
      rw [hhelper, hstored, hreturned]
    · rw [if_neg hphase] at houtcome ⊢
      obtain ⟨hnext, hstored, hhelper⟩ := houtcome
      simp only [except_bind_ok_iff, require_ok_iff, except_pure_ok_iff]
      refine ⟨e.helper, hhelper, next, hnext, (), fun hboth => hlate hboth.1, some data,
        emitReceipt_accept_ok_iff.mpr ⟨data, h.receipt, rfl⟩, ?_⟩
      cases e
      simp only at hstored hreturned
      rw [hstored, hreturned]

theorem process_eq (L : Ledger σ) (engineState callbackAuthority : AccountInfo)
    (opaqueAccounts : List AccountInfo) {data : List UInt8}
    (hdata : Wire.Routed.encodeEngineInstruction request = .ok data) :
    ∃ encoded, Wire.Routed.encodeEngineRequest request = .ok encoded ∧
      process L (engineState :: callbackAuthority :: opaqueAccounts) data =
        evaluatePhase L ⟨engineState, callbackAuthority⟩ opaqueAccounts request.binding.phase
          encoded := by
  obtain ⟨encoded, discriminator, hencode, hdiscriminator, rfl⟩ :=
    Wire.Routed.encodeEngineInstruction_ok_iff.mp hdata
  have hlen := Wire.Routed.encodeEngineRequest_length hencode
  have hdrop : (discriminator.toList ++ encoded).drop 8 = encoded := by
    rw [List.drop_left' (by simp)]
  have htake : (discriminator.toList ++ encoded).take 8 = discriminator.toList := by
    rw [List.take_left' (by simp)]
  have hprepare : ¬ Wire.Routed.enginePrepareDiscriminator.toList =
      Wire.Routed.engineTransitionDiscriminator.toList := by decide
  have hcommit : ¬ Wire.Routed.engineCommitDiscriminator.toList =
      Wire.Routed.engineTransitionDiscriminator.toList := by decide
  have hcommit' : ¬ Wire.Routed.engineCommitDiscriminator.toList =
      Wire.Routed.enginePrepareDiscriminator.toList := by decide
  refine ⟨encoded, hencode, ?_⟩
  unfold process
  simp only [htake, hdrop, require_of hlen.ge, except_ok_bind, List.take_of_length_le hlen.le]
  rw [Wire.Routed.enginePhaseDiscriminator_ok_iff] at hdiscriminator
  rcases hdiscriminator with ⟨hp, rfl⟩ | ⟨hp, rfl⟩ | ⟨hp, rfl⟩
  · rw [if_pos rfl, hp]
  · rw [if_neg hprepare, if_pos rfl, hp]
  · rw [if_neg hcommit, if_neg hcommit', if_pos rfl, hp]

variable {programId : Pubkey} {helper : Callee σ programId} {ix : Instruction}
  {response : Response programId} {engineState callbackAuthority : AccountInfo}

/-- What a nested call to the helper does, where there is one. -/
def nestedResponse (helper : Callee σ programId) (L : Ledger σ) :
    Option Instruction → Option (Response programId)
  | none => some ⟨[], none⟩
  | some call => helper call L

/-- The write of the state, where it is stored. -/
def storeActions : Option (Pubkey × EngineState) → List (Action programId)
  | none => []
  | some (key, state) => [.write ID key ID false state.trySerialize]

/-- The response to an evaluation, after what the helper does in it. -/
def responseOf (e : Evaluation) (nested : Response programId) : Response programId where
  actions := nested.actions ++ storeActions e.stored
  returned := match e.returned with
    | none => nested.returned
    | some data => some (ID, data)

theorem respond_of_ok {e : Evaluation} (h : process L ix.presented ix.data = .ok e) :
    respond helper ix L = (nestedResponse helper L e.helper).map (responseOf e) := by
  unfold respond
  rw [h]
  rcases e with ⟨called, stored, returned⟩
  cases called with
  | none => cases stored <;> rfl
  | some call => cases stored <;> exact Option.map_eq_bind.symm

/-- An answer is an evaluation, what the helper does in it, and the write of the state. -/
theorem respond_eq_some_iff : respond helper ix L = some response ↔
    ∃ e nested, process L ix.presented ix.data = .ok e ∧
      nestedResponse helper L e.helper = some nested ∧
      response = {
        actions := nested.actions ++ storeActions e.stored
        returned := match e.returned with
          | none => nested.returned
          | some data => some (ID, data) } := by
  cases hprocess : process L ix.presented ix.data with
  | error err =>
    unfold respond
    rw [hprocess]
    simp [Except.toOption]
  | ok e =>
    rw [respond_of_ok hprocess, Option.map_eq_some_iff]
    constructor
    · intro h
      obtain ⟨nested, hnested, hresponse⟩ := h
      exact ⟨e, nested, rfl, hnested, hresponse.symm⟩
    · intro h
      obtain ⟨e', nested, he, hnested, hresponse⟩ := h
      obtain rfl := Except.ok.inj he
      exact ⟨nested, hnested, hresponse.symm⟩

theorem respond_accept (h : respond helper ix L = some response)
    (hpresented : ix.presented = engineState :: callbackAuthority :: opaqueAccounts)
    (hdata : Wire.Routed.encodeEngineInstruction request = .ok ix.data)
    (hmode : ∀ s, loadEngineState L engineState.key = .ok s → s.mode = modeAccept) :
    ∃ state quote next data e, Evaluated L ⟨engineState, callbackAuthority⟩ opaqueAccounts
      request.binding.phase request state quote next data e ∧
      response.returned = some (ID, data) := by
  obtain ⟨encoded, hencode, hprocess⟩ :=
    process_eq L engineState callbackAuthority opaqueAccounts hdata
  obtain ⟨e, nested, he, -, rfl⟩ := respond_eq_some_iff.mp h
  rw [hpresented, hprocess] at he
  obtain ⟨state, q, next, data, hev⟩ := (evaluatePhase_ok_iff hencode hmode).mp he
  refine ⟨state, q, next, data, e, hev, ?_⟩
  rw [hev.returned]

end Answer

end ProgrammableSolana.Engines.RoutedPlan
