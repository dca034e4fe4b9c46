import ProgrammableSolana.Engines.GeneratedPlan
import ProgrammableSolana.Wire.Formats

/-! What the reference engine of the generated-settlement Core answers an evaluation with. -/
namespace ProgrammableSolana.Engines.GeneratedPlan

open ProgrammableSolana.Lib ProgrammableSolana.Solana ProgrammableSolana.Engines
open ProgrammableSolana.Wire.Generated (EngineRequest EngineReceipt)

section State

/-- The layout of a state account. -/
def engineStateCodec : Codec EngineError EngineState :=
  (discriminatorCodec.pair <| (Codec.bytes 32).pair <| (Codec.bytes 32).pair <| Codec.u64.pair <|
    Codec.u16.pair <| Codec.u64.pair <| (Codec.bytes 32).pair <| Codec.u64.pair <|
    Codec.u8.pair Codec.u8).map
    (fun (_, authority, market, revision, lpFeeBps, sequence, lastRequestHash, lastAmountOut,
        capabilityAuthorityBump, mode) =>
      { authority, market, revision, lpFeeBps, sequence, lastRequestHash, lastAmountOut,
        capabilityAuthorityBump, mode })
    (fun s => ((), s.authority, s.market, s.revision, s.lpFeeBps, s.sequence, s.lastRequestHash,
      s.lastAmountOut, s.capabilityAuthorityBump, s.mode))
    (fun _ => rfl) (fun _ => rfl)

theorem readEngineState_eq (data : List UInt8) :
    readEngineState data = engineStateCodec.read data := by
  simp only [readEngineState, engineStateCodec, discriminatorCodec, Codec.map, Codec.pair,
    Codec.literal, Codec.bytes, Codec.u64, Codec.u16, Codec.u8, bind_assoc, pure_bind, readU64,
    readU16]

theorem engineStateCodec_valid (s : EngineState) : engineStateCodec.Valid s := by
  simp only [engineStateCodec, discriminatorCodec_valid, Codec.map_valid_iff, Codec.pair_valid_iff,
    Codec.bytes_valid, Codec.u64_valid, Codec.u16_valid, Codec.u8_valid, and_self]

theorem trySerialize_eq (s : EngineState) : s.trySerialize = engineStateCodec.enc s := by
  simp only [EngineState.trySerialize, List.flatten_cons, List.flatten_nil, List.append_nil]
  rfl

variable {σ : Type} {L : Ledger σ} {key : Pubkey}

theorem loadEngineState_stored {s : EngineState} {executable : Bool}
    (h : L key = ⟨ID, executable, .raw s.trySerialize⟩) : loadEngineState L key = .ok s := by
  have hlen : s.trySerialize.length = engineStateLen := by
    rw [trySerialize_eq]
    exact engineStateCodec.length_enc s
  have hread : (readEngineState s.trySerialize).decode = .ok s := by
    rw [readEngineState_eq, engineStateCodec.decode_eq_ok_iff hlen]
    exact ⟨engineStateCodec_valid s, trySerialize_eq s⟩
  unfold loadEngineState
  rw [h, require_of rfl, except_ok_bind]
  show (require (s.trySerialize.length = engineStateLen) EngineError.invalidEngineState >>= fun _ =>
    (readEngineState s.trySerialize).decode.mapError fun _ => EngineError.invalidEngineState) = .ok s
  rw [require_of hlen, except_ok_bind, hread]
  rfl

end State

section Answer

variable [Crypto] {σ : Type} {L : Ledger σ} {top : Introspection} {accounts : Evaluate}
  {opaqueAccounts : List AccountInfo} {request : EngineRequest} {state : EngineState}

/-- What an evaluation checks before it quotes. -/
structure Authenticated (L : Ledger σ) (top : Introspection) (accounts : Evaluate)
    (opaqueAccounts : List AccountInfo) (request : EngineRequest) (state : EngineState) : Prop where
  loaded : loadEngineState L accounts.engineState.key = .ok state
  writable : accounts.engineState.isWritable = true
  sysvar : accounts.instructionsSysvar.key = instructionsSysvarId
  direct : requireDirectCoreCpi top = .ok ()
  few : opaqueAccounts.length ≤ maxOpaqueCapabilities
  count : opaqueAccounts.length = request.opaqueAccountCount.toNat
  market : state.market = request.market
  revision : state.revision = request.engineRevision
  capability : Wire.Generated.computeCapabilityHash ID
    (capabilityDescriptor L accounts.engineState :: capabilityDescriptor L accounts.instructionsSysvar ::
      opaqueAccounts.map (capabilityDescriptor L)) = .ok request.capabilityHash

theorem authenticate_ok_iff {encoded : List UInt8}
    (hencode : Wire.Generated.encodeRequest request = .ok encoded) {r : EngineRequest} :
    authenticate L top accounts opaqueAccounts encoded = .ok (r, state) ↔
      r = request ∧ Authenticated L top accounts opaqueAccounts request state := by
  have hdecode := Wire.Generated.decodeRequest_ok_iff.mpr hencode
  unfold authenticate
  simp only [except_bind_ok_iff, require_ok_iff, mapError_ok_iff, hdecode, Except.ok.injEq,
    except_pure_ok_iff, Prod.mk.injEq]
  constructor
  · rintro ⟨s, hstate, _, hwritable, _, hsysvar, _, hdirect, r', rfl, _, hfew, _, hcount, _, hmarket, _,
      hrevision, hash, hhash, _, rfl, rfl, rfl⟩
    exact ⟨rfl, hstate, hwritable, hsysvar, hdirect, hfew, hcount, hmarket, hrevision, hhash⟩
  · rintro ⟨rfl, h⟩
    exact ⟨state, h.loaded, (), h.writable, (), h.sysvar, (), h.direct, r, rfl, (), h.few, (), h.count,
      (), h.market, (), h.revision, _, h.capability, (), rfl, rfl, rfl⟩

/-- What an evaluation in `MODE_ACCEPT` comes to. -/
structure Evaluated (L : Ledger σ) (top : Introspection) (accounts : Evaluate)
    (opaqueAccounts : List AccountInfo) (request : EngineRequest) (state : EngineState)
    (quote : CpmmQuote) (next : EngineState) (data : List UInt8) (e : Evaluation) : Prop where
  authenticated : Authenticated L top accounts opaqueAccounts request state
  quoted : quoteExactIn request.accountedInputBefore request.accountedOutputBefore request.amountIn
    state.lpFeeBps = .ok quote
  advanced : advance state request quote.amountOut = .ok next
  receipt : Wire.Generated.encodeReceipt ⟨request.requestHash, quote.amountOut, next.sequence⟩ =
    .ok data
  helper : helperInstruction L (request.payload.toList.take request.payloadLen.toNat)
    opaqueAccounts accounts.engineState.key state.capabilityAuthorityBump = .ok e.helper
  stored : e.stored = (accounts.engineState.key, next)
  returned : e.returned = some data

omit [Crypto] in
theorem modeAmountOut_accept (quoted : UInt64) : modeAmountOut modeAccept quoted = quoted := by
  have hzero : ¬ modeAccept = modeZeroOutput := by decide
  have hoversized : ¬ modeAccept = modeOversizedOutput := by decide
  unfold modeAmountOut
  rw [if_neg hzero, if_neg hoversized]

omit [Crypto] in
theorem emitReceipt_accept_ok_iff {receipt : EngineReceipt} {returned : Option (List UInt8)} :
    emitReceipt modeAccept receipt = .ok returned ↔
      ∃ data, Wire.Generated.encodeReceipt receipt = .ok data ∧ returned = some data := by
  unfold emitReceipt
  simp only [except_bind_ok_iff, mapError_ok_iff, true_or, if_true, except_pure_ok_iff]
  simp only [eq_comm]

theorem evaluate_ok_iff {encoded : List UInt8} {e : Evaluation}
    (hencode : Wire.Generated.encodeRequest request = .ok encoded)
    (hmode : ∀ s, loadEngineState L accounts.engineState.key = .ok s → s.mode = modeAccept) :
    evaluate L top accounts opaqueAccounts encoded = .ok e ↔
      ∃ state quote next data,
        Evaluated L top accounts opaqueAccounts request state quote next data e := by
  have hquiet : modeAccept ≠ modeHostileReadonlyEscalation := by decide
  unfold evaluate
  simp only [except_bind_ok_iff, Prod.exists, authenticate_ok_iff hencode, require_ok_iff,
    except_pure_ok_iff]
  constructor
  · rintro ⟨r, state, ⟨rfl, hauth⟩, q, hq, helper, hhelper, _, -, next, hnext, returned, hreturned, rfl⟩
    have haccept := hmode state hauth.loaded
    rw [haccept] at hnext hreturned
    rw [modeAmountOut_accept] at hnext hreturned
    obtain ⟨data, hdata, rfl⟩ := emitReceipt_accept_ok_iff.mp hreturned
    exact ⟨state, q, next, data, hauth, hq, hnext, hdata, hhelper, rfl, rfl⟩
  · rintro ⟨state, q, next, data, h⟩
    have haccept := hmode state h.authenticated.loaded
    refine ⟨request, state, ⟨rfl, h.authenticated⟩, q, h.quoted, e.helper, h.helper, (), ?_, next, ?_,
      some data, ?_, ?_⟩
    · rw [haccept]
      exact hquiet
    · rw [haccept, modeAmountOut_accept]
      exact h.advanced
    · rw [haccept, modeAmountOut_accept]
      exact emitReceipt_accept_ok_iff.mpr ⟨data, h.receipt, rfl⟩
    · have hstored := h.stored
      have hreturned := h.returned
      cases e
      simp only at hstored hreturned
      rw [hstored, hreturned]

theorem process_eq (L : Ledger σ) (top : Introspection)
    (engineState instructionsSysvar : AccountInfo) (opaqueAccounts : List AccountInfo)
    {data : List UInt8} (hdata : Wire.Generated.encodeEvaluateInstruction request = .ok data) :
    ∃ encoded, Wire.Generated.encodeRequest request = .ok encoded ∧
      process L top (engineState :: instructionsSysvar :: opaqueAccounts) data =
        evaluate L top ⟨engineState, instructionsSysvar⟩ opaqueAccounts encoded := by
  obtain ⟨encoded, hencode, rfl⟩ := Wire.Generated.encodeEvaluateInstruction_ok_iff.mp hdata
  have hlen := Wire.Generated.encodeRequest_length hencode
  have hdrop : (Wire.evaluateDiscriminator.toList ++ encoded).drop 8 = encoded := by
    rw [List.drop_left' (by simp)]
  have htake : (Wire.evaluateDiscriminator.toList ++ encoded).take 8 =
      Wire.evaluateDiscriminator.toList := by
    rw [List.take_left' (by simp)]
  refine ⟨encoded, hencode, ?_⟩
  unfold process
  rw [htake, hdrop, require_of rfl, except_ok_bind, require_of hlen.ge, except_ok_bind,
    List.take_of_length_le hlen.le]

variable {programId : Pubkey} {helper : Callee σ programId} {ix : Instruction}
  {response : Response programId} {engineState instructionsSysvar : AccountInfo}

/-- What a nested call to the helper does, where there is one. -/
def nestedResponse (helper : Callee σ programId) (L : Ledger σ) :
    Option Instruction → Option (Response programId)
  | none => some ⟨[], none⟩
  | some call => helper call L

/-- The response to an evaluation, after what the helper does in it. -/
def responseOf (e : Evaluation) (nested : Response programId) : Response programId where
  actions := nested.actions ++ [.write ID e.stored.1 ID false e.stored.2.trySerialize]
  returned := match e.returned with
    | none => nested.returned
    | some data => some (ID, data)

theorem respond_of_ok {e : Evaluation} (h : process L top ix.presented ix.data = .ok e) :
    respond top helper ix L = (nestedResponse helper L e.helper).map (responseOf e) := by
  unfold respond
  rw [h]
  rcases e with ⟨called, stored, returned⟩
  cases called with
  | none => rfl
  | some call => exact Option.map_eq_bind.symm

/-- An answer is an evaluation, what the helper does in it, and the write of the state. -/
theorem respond_eq_some_iff : respond top helper ix L = some response ↔
    ∃ e nested, process L top ix.presented ix.data = .ok e ∧
      nestedResponse helper L e.helper = some nested ∧
      response = {
        actions := nested.actions ++ [.write ID e.stored.1 ID false e.stored.2.trySerialize]
        returned := match e.returned with
          | none => nested.returned
          | some data => some (ID, data) } := by
  cases hprocess : process L top ix.presented ix.data with
  | error err =>
    unfold respond
    rw [hprocess]
    simp [Except.toOption]
  | ok e =>
    rw [respond_of_ok hprocess, Option.map_eq_some_iff]
    constructor
    · intro h
      obtain ⟨nested, hnested, hresponse⟩ := h
      exact ⟨e, nested, rfl, hnested, hresponse.symm⟩
    · intro h
      obtain ⟨e', nested, he, hnested, hresponse⟩ := h
      obtain rfl := Except.ok.inj he
      exact ⟨nested, hnested, hresponse.symm⟩

theorem respond_accept (h : respond top helper ix L = some response)
    (hpresented : ix.presented = engineState :: instructionsSysvar :: opaqueAccounts)
    (hdata : Wire.Generated.encodeEvaluateInstruction request = .ok ix.data)
    (hmode : ∀ s, loadEngineState L engineState.key = .ok s → s.mode = modeAccept) :
    ∃ state quote next data e, Evaluated L top ⟨engineState, instructionsSysvar⟩ opaqueAccounts
      request state quote next data e ∧ response.returned = some (ID, data) := by
  obtain ⟨encoded, hencode, hprocess⟩ :=
    process_eq L top engineState instructionsSysvar opaqueAccounts hdata
  obtain ⟨e, nested, he, -, rfl⟩ := respond_eq_some_iff.mp h
  rw [hpresented, hprocess] at he
  obtain ⟨state, q, next, data, hev⟩ := (evaluate_ok_iff hencode hmode).mp he
  refine ⟨state, q, next, data, e, hev, ?_⟩
  rw [hev.returned]

end Answer

end ProgrammableSolana.Engines.GeneratedPlan
