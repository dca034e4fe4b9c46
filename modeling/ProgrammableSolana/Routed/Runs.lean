import ProgrammableSolana.Core.Runs
import ProgrammableSolana.Engines.RoutedPlan
import ProgrammableSolana.Routed.AuthorizeEffect
import ProgrammableSolana.Routed.ExecuteEffect
import ProgrammableSolana.Solana.Balances

/-! Whole runs of the routed Core, where anyone may submit an execution. -/
namespace ProgrammableSolana.Routed

open ProgrammableSolana.Lib ProgrammableSolana.Solana ProgrammableSolana.Core
open ProgrammableSolana.Lib.Custody ProgrammableSolana.Lib.Transactions

section Operations

variable [Crypto]

/-- One instruction: to the Core, directly or through another program, with whatever arguments,
accounts and engine, or to another program. -/
inductive Op where
  | initializeMarketDomainV0 (a : InitializeMarketDomainV0) (args : InitializeMarketDomainV0Args)
  | depositV0 (a : DepositV0) (args : DepositV0Args) (hsigners : SignedOutside ID a.infos)
  | authorizeSpendV0 (env : Env config) (a : AuthorizeSpendV0) (args : AuthorizeSpendV0Args)
      (hsigners : SignedOutside ID a.infos)
  | executeCallbackAuthenticatedProbeV0 (env : Env config)
      (a : ExecuteCallbackAuthenticatedProbeV0) (args : ExecuteCallbackAuthenticatedProbeV0Args)
  | external (action : Action ID)

namespace Op

def handle : Op → Handler Unit
  | initializeMarketDomainV0 a args => handleInitializeMarketDomainV0 config a args
  | depositV0 a args _ => handleDepositV0 config a args
  | authorizeSpendV0 env a args _ => handleAuthorizeSpendV0 env a args
  | executeCallbackAuthenticatedProbeV0 env a args =>
    handleExecuteCallbackAuthenticatedProbeV0 env a args
  | external action => (action.perform (anyPrivileges ID)).mapError .runtime

def step (o : Op) (w : Core.World) : Result Core.World := o.handle.transact w

/-- Whether the instruction is one of the Core's own. -/
def isCore : Op → Bool
  | external _ => false
  | _ => true

/-- The event an instruction of the Core leaves, as far as its arguments fix it. -/
def Recorded : Op → CoreEvent → Prop
  | initializeMarketDomainV0 a _, .marketDomainInitialized e => e.market = a.market.key
  | depositV0 a args _, .liquidityDeposited e =>
    e.market = a.market.key ∧ e.assetIndex = args.assetIndex ∧ e.amount = args.amount
  | authorizeSpendV0 _ a _ _, .spendAuthorized e => e.userInput = a.source.key
  | executeCallbackAuthenticatedProbeV0 _ a args, .callbackAuthenticatedProbeExecuted e =>
    e.market = a.market.key ∧ e.userInput = a.userSourceA.key ∧ e.amountIn = args.amountIn
  | _, _ => False

end Op

theorem CallbackAuthenticated.emittedEvents_eq {env : Env config} {w w₁ w₂ w₃ w' : Core.World}
    {a : ExecuteCallbackAuthenticatedProbeV0} {args : ExecuteCallbackAuthenticatedProbeV0Args}
    {x : Stages} (h : CallbackAuthenticated env w w₁ w₂ w₃ w' a args x) :
    ∃ e : CallbackAuthenticatedProbeExecutedV0,
      emittedEvents w'.log = emittedEvents w.log ++ [.callbackAuthenticatedProbeExecuted e] ∧
      e.market = a.market.key ∧ e.userInput = a.userSourceA.key ∧
      e.spendAuthority = a.spendAuthority.key ∧ e.intentDigest = x.intent.intentDigest ∧
      e.amountIn = args.amountIn ∧ e.amountOut = x.settlement.amountOut := by
  obtain ⟨e, hlog, hm, hs, hspend, hd, hin, hout, -⟩ := h.emitted
  have h₃ : emittedEvents w₃.log = emittedEvents w₂.log := by
    rcases h.committed with ⟨-, rfl⟩ | ⟨-, _, _, _, hc⟩
    · rfl
    · exact hc.accepted.called.emitted
  refine ⟨e, ?_, hm, hs, hspend, hd, hin, hout⟩
  rw [hlog, emittedEvents_append, h₃, h.emitted₂, h.primary.called.emitted]
  rfl

/-- What one operation does to the books is what it leaves in the log. -/
theorem Op.booked {o : Op} {w w' : Core.World} (h : o.step w = .ok w') (hw : Booked config w) :
    Booked config w' ∧ (if o.isCore then ∃ e, Recorded o e ∧
        emittedEvents w'.log = emittedEvents w.log ++ [e]
      else emittedEvents w'.log = emittedEvents w.log) := by
  have h := Exec.transact_ok_iff.mp h
  cases o with
  | initializeMarketDomainV0 a args =>
    obtain ⟨bumps, hinit⟩ := initialize_ok h
    obtain ⟨-, e, he, hmarket⟩ := initialize_logged h
    refine ⟨hw.step he ?_, .marketDomainInitialized e, hmarket, he⟩
    rw [eventFlow_singleton, CoreEvent.flow_initialized]
    exact hinit.refines
  | depositV0 a args hsigners =>
    obtain ⟨d, hdeposit⟩ := deposit_ok h
    obtain ⟨-, e, he, hmarket, hi, ha⟩ := deposit_logged h
    have hsigner := hsigners a.provider (by simp [DepositV0.infos]) hdeposit.signed
    obtain ⟨r, r', hacts⟩ := hdeposit.actsOn hw.inv hsigner
    refine ⟨hw.step he ?_, .liquidityDeposited e, ⟨hmarket, hi, ha⟩, he⟩
    rw [eventFlow_singleton, CoreEvent.flow_deposited hi ha, hmarket]
    exact hacts.refines
  | authorizeSpendV0 env a args hsigners =>
    obtain ⟨t, i, mint, decimals, e, hauth, hlog, hinput, -⟩ := authorize_ok h
    have hsigner := hsigners a.user (by simp [AuthorizeSpendV0.infos]) hauth.signed
    have he : emittedEvents w'.log = emittedEvents w.log ++ [.spendAuthorized e] := by
      rw [hlog, emittedEvents_append]
      rfl
    refine ⟨hw.step he ?_, .spendAuthorized e, hinput, he⟩
    rw [eventFlow_singleton, CoreEvent.flow_authorized]
    exact hauth.refines hsigner
  | executeCallbackAuthenticatedProbeV0 env a args =>
    obtain ⟨w₁, w₂, w₃, x, hx⟩ := execute_ok h
    obtain ⟨e, he, hmarket, hsource, -, -, hin, hout⟩ := hx.emittedEvents_eq
    refine ⟨hw.step he ?_, .callbackAuthenticatedProbeExecuted e, ⟨hmarket, hsource, hin⟩, he⟩
    have hflow : (x.settlement.terms args).flow = ⟨args.amountIn.toNat, 0,
        x.settlement.amountOut.toNat, ceilFee args.amountIn.toNat protocolFeeBpsV0.toNat⟩ := by
      rw [SettleTerms.flow, hx.executed.fee]
      rfl
    have hsettled : CoreEvent.settled? (.callbackAuthenticatedProbeExecuted e) =
        some (a.market.key, args.amountIn, x.settlement.amountOut) := by
      rw [CoreEvent.settled?, hmarket, hin, hout]
    rw [eventFlow_singleton, CoreEvent.flow_settled hsettled, ← hflow]
    exact (hx.executed.actsOn hw.inv (.inr hx.source_delegated)).refines
  | external action =>
    have h := Exec.mapError_run_ok_iff.mp h
    obtain ⟨-, he⟩ := Action.perform_quiet h
    exact ⟨hw.idle he (refines_of_action h), he⟩

/-- Every state a run reaches is accounted for by the events it left, and these are the events
of the operations that took effect, in their order. -/
theorem run_booked {w : Core.World} (h : Genesis config w.ledger) (hlog : w.log = [])
    (txs : List (List Op)) :
    Booked config (run Op.step w txs).1 ∧
      List.Forall₂ Op.Recorded ((run Op.step w txs).2.filter Op.isCore)
        (emittedEvents (run Op.step w txs).1.log) := by
  refine run_preserves (P := fun (w : Core.World) history => Booked config w ∧
      List.Forall₂ Op.Recorded (history.filter Op.isCore) (emittedEvents w.log))
    ⟨h.booked hlog, ?_⟩ fun w history tx _ o _ w' ⟨hbooked, hrecorded⟩ hstep => ?_
  · rw [hlog]
    exact .nil
  · obtain ⟨hbooked', hevents⟩ := Op.booked hstep hbooked
    refine ⟨hbooked', ?_⟩
    rw [List.filter_append]
    cases hcore : o.isCore with
    | false =>
      rw [hcore, if_neg (by simp)] at hevents
      simpa [hcore, hevents] using hrecorded
    | true =>
      rw [hcore, if_pos rfl] at hevents
      obtain ⟨e, he, hemitted⟩ := hevents
      simp only [List.filter_cons, hcore, if_true, List.filter_nil, hemitted]
      exact List.rel_append hrecorded (.cons he .nil)

end Operations

namespace Sample

open ProgrammableSolana.Core.Sample ProgrammableSolana.Engines
open ProgrammableSolana.Wire.Routed (timingSingle timingPrepareCommit phaseTransition phasePrepare
  phaseCommit)

def market : SampleMarket where
  marketId := key 48
  market :=
    ⟨[251, 14, 31, 205, 251, 128, 35, 254, 234, 146, 180, 56, 167, 190, 26, 254, 220, 38, 185,
      100, 255, 163, 211, 19, 44, 55, 106, 213, 249, 179, 254, 138], rfl⟩
  domain :=
    ⟨[21, 234, 163, 105, 184, 218, 210, 113, 166, 176, 115, 164, 230, 69, 230, 247, 96, 46, 162,
      160, 184, 253, 25, 152, 185, 207, 143, 154, 201, 174, 159, 39], rfl⟩
  feeLedger :=
    ⟨[6, 117, 65, 30, 207, 143, 99, 122, 50, 197, 229, 4, 139, 121, 19, 21, 74, 86, 163, 112,
      56, 9, 60, 62, 76, 162, 25, 145, 15, 227, 58, 169], rfl⟩
  vaultA :=
    ⟨[100, 187, 133, 141, 44, 246, 245, 120, 46, 51, 124, 74, 29, 16, 225, 158, 59, 75, 245, 37,
      37, 181, 82, 127, 125, 205, 242, 130, 2, 125, 213, 201], rfl⟩
  vaultB :=
    ⟨[133, 15, 96, 221, 50, 225, 38, 178, 105, 104, 70, 164, 65, 10, 250, 66, 193, 246, 103,
      214, 157, 143, 27, 138, 246, 35, 207, 73, 46, 7, 35, 141], rfl⟩
  feeVault :=
    ⟨[203, 77, 31, 252, 70, 204, 171, 99, 196, 35, 188, 120, 159, 14, 123, 225, 105, 54, 17,
      237, 119, 28, 194, 222, 229, 216, 133, 11, 243, 193, 149, 251], rfl⟩

/-- The digests of one execution, worked out beforehand. -/
structure SampleDigests where
  authorized : Hash
  readOnly : Hash
  payload : Hash
  intent : Hash
  spend : Pubkey
  primaryCallback : Pubkey
  commitCallback : Pubkey
  execution : Hash
  receipt : Hash
  settlement : Hash
  commitExecution : Hash
  commitReceipt : Hash

def single : SampleDigests where
  authorized :=
    ⟨[171, 11, 247, 107, 205, 214, 17, 225, 193, 162, 221, 149, 122, 107, 177, 219, 2, 81, 233,
      129, 35, 111, 108, 19, 107, 24, 86, 83, 93, 142, 161, 219], rfl⟩
  readOnly :=
    ⟨[129, 189, 218, 217, 146, 143, 254, 94, 2, 40, 120, 85, 5, 159, 138, 240, 65, 99, 181, 249,
      138, 40, 31, 81, 231, 229, 67, 189, 24, 91, 29, 1], rfl⟩
  payload :=
    ⟨[220, 226, 143, 237, 79, 196, 117, 102, 122, 214, 49, 34, 75, 219, 100, 115, 106, 132, 99,
      99, 243, 60, 168, 142, 160, 93, 250, 114, 188, 151, 164, 163], rfl⟩
  intent :=
    ⟨[91, 251, 87, 198, 43, 212, 121, 243, 22, 103, 178, 17, 117, 58, 255, 206, 139, 118, 225,
      106, 155, 104, 34, 254, 105, 2, 214, 77, 146, 108, 42, 101], rfl⟩
  spend :=
    ⟨[164, 23, 39, 134, 49, 100, 94, 110, 252, 6, 204, 217, 45, 178, 204, 195, 88, 170, 11, 206,
      163, 112, 255, 99, 1, 39, 232, 251, 114, 217, 217, 89], rfl⟩
  primaryCallback :=
    ⟨[225, 86, 15, 68, 106, 249, 175, 129, 33, 201, 149, 112, 80, 82, 192, 210, 59, 246, 68,
      229, 159, 253, 13, 205, 77, 193, 45, 181, 18, 239, 19, 200], rfl⟩
  commitCallback :=
    ⟨[73, 50, 109, 156, 162, 191, 110, 242, 204, 171, 127, 165, 97, 9, 81, 188, 185, 88, 206,
      221, 223, 195, 3, 36, 236, 234, 245, 58, 113, 196, 111, 220], rfl⟩
  execution :=
    ⟨[212, 190, 217, 166, 71, 226, 113, 84, 173, 210, 186, 34, 74, 4, 54, 235, 155, 85, 23, 135,
      152, 27, 15, 158, 144, 2, 96, 207, 83, 253, 238, 95], rfl⟩
  receipt :=
    ⟨[218, 62, 197, 153, 217, 217, 98, 120, 123, 211, 197, 141, 80, 1, 174, 67, 206, 44, 23, 21,
      193, 68, 162, 78, 57, 29, 219, 167, 93, 208, 243, 124], rfl⟩
  settlement :=
    ⟨[69, 135, 26, 244, 212, 139, 81, 10, 229, 205, 46, 45, 135, 171, 239, 213, 95, 171, 98, 16,
      101, 118, 121, 10, 232, 112, 53, 205, 207, 172, 94, 203], rfl⟩
  commitExecution :=
    ⟨[220, 207, 93, 253, 225, 213, 76, 73, 115, 89, 204, 125, 165, 169, 238, 192, 83, 244, 132,
      122, 250, 250, 13, 159, 134, 245, 170, 73, 225, 8, 62, 123], rfl⟩
  commitReceipt :=
    ⟨[20, 243, 7, 212, 231, 95, 204, 185, 249, 26, 194, 128, 2, 149, 228, 238, 240, 9, 229, 0,
      143, 114, 43, 194, 20, 179, 255, 113, 243, 234, 48, 180], rfl⟩

def twoPhase : SampleDigests where
  authorized :=
    ⟨[171, 11, 247, 107, 205, 214, 17, 225, 193, 162, 221, 149, 122, 107, 177, 219, 2, 81, 233,
      129, 35, 111, 108, 19, 107, 24, 86, 83, 93, 142, 161, 219], rfl⟩
  readOnly :=
    ⟨[129, 189, 218, 217, 146, 143, 254, 94, 2, 40, 120, 85, 5, 159, 138, 240, 65, 99, 181, 249,
      138, 40, 31, 81, 231, 229, 67, 189, 24, 91, 29, 1], rfl⟩
  payload :=
    ⟨[220, 226, 143, 237, 79, 196, 117, 102, 122, 214, 49, 34, 75, 219, 100, 115, 106, 132, 99,
      99, 243, 60, 168, 142, 160, 93, 250, 114, 188, 151, 164, 163], rfl⟩
  intent :=
    ⟨[93, 4, 250, 93, 162, 202, 234, 3, 125, 177, 137, 132, 226, 230, 145, 152, 223, 32, 205,
      184, 27, 72, 145, 141, 238, 180, 96, 103, 164, 192, 44, 54], rfl⟩
  spend :=
    ⟨[189, 224, 216, 183, 13, 56, 183, 252, 132, 189, 228, 44, 64, 182, 22, 220, 191, 50, 217,
      211, 39, 159, 212, 249, 172, 190, 206, 151, 50, 83, 195, 168], rfl⟩
  primaryCallback :=
    ⟨[127, 40, 49, 41, 254, 113, 59, 228, 200, 143, 131, 41, 99, 171, 43, 87, 100, 106, 58, 144,
      135, 227, 236, 57, 65, 155, 86, 163, 44, 141, 48, 74], rfl⟩
  commitCallback :=
    ⟨[237, 23, 111, 133, 179, 76, 121, 170, 3, 235, 15, 5, 155, 218, 164, 20, 186, 90, 85, 24,
      155, 1, 96, 99, 197, 112, 157, 56, 80, 193, 43, 229], rfl⟩
  execution :=
    ⟨[160, 13, 203, 15, 191, 51, 193, 59, 94, 205, 133, 122, 128, 79, 46, 94, 151, 107, 41, 197,
      15, 6, 143, 217, 204, 59, 170, 134, 231, 81, 7, 200], rfl⟩
  receipt :=
    ⟨[63, 219, 237, 124, 49, 104, 111, 73, 2, 31, 212, 19, 203, 92, 32, 132, 56, 75, 22, 216,
      18, 61, 225, 48, 250, 8, 234, 196, 218, 210, 101, 75], rfl⟩
  settlement :=
    ⟨[254, 148, 119, 93, 185, 135, 173, 37, 181, 169, 254, 229, 119, 140, 139, 165, 252, 64, 3,
      127, 97, 181, 228, 185, 92, 224, 126, 114, 248, 22, 64, 52], rfl⟩
  commitExecution :=
    ⟨[181, 140, 153, 216, 255, 237, 225, 254, 13, 34, 219, 247, 97, 16, 69, 6, 129, 132, 52,
      101, 22, 182, 208, 250, 92, 49, 122, 105, 28, 168, 101, 42], rfl⟩
  commitReceipt :=
    ⟨[128, 46, 193, 21, 191, 239, 235, 143, 182, 36, 170, 235, 204, 35, 45, 175, 68, 85, 182,
      120, 85, 209, 45, 200, 6, 180, 81, 188, 68, 36, 30, 22], rfl⟩


/-- An account of some other program, passed to the engine twice. -/
def opaqueAccount : Pubkey := key 28

def engineAccount (timingMode mode : UInt8) : Account CoreState where
  owner := RoutedPlan.ID
  executable := false
  data := .raw (RoutedPlan.EngineState.trySerialize
    { authority := user, market := market.market, revision := 1, lpFeeBps := 30, timingMode,
      sequence := 0, lastIntentDigest := Bytes.zero 32, lastPhaseContextDigest := Bytes.zero 32,
      lastExecutionDigest := Bytes.zero 32, lastAmountOut := 0,
      lastPhase := RoutedPlan.noCompletedPhase, mode })

/-- The engine's state is ready before its market is. -/
def genesis (timingMode mode : UInt8) : Ledger := .ofList [
  (mintA, mintAccount), (mintB, mintAccount), (sourceA, tokenAccount mintA 1000000),
  (sourceB, tokenAccount mintB 1000000), (destinationB, tokenAccount mintB 0),
  (RoutedPlan.ID, program), (engineState, engineAccount timingMode mode),
  (opaqueAccount, ⟨key 5, false, .raw [0]⟩), (tokenProgram, program), (systemProgram, program)]

def opening : InitializeMarketDomainV0 :=
  { Core.Sample.opening market with engineProgram := readonly RoutedPlan.ID }

def depositA : DepositV0 :=
  { depositB market with
    mint := readonly mintA, providerSource := writable sourceA,
    domainVault := writable market.vaultA }

def authorize (x : SampleDigests) : AuthorizeSpendV0 where
  user := signer user
  source := writable sourceA
  mint := readonly mintA
  spendAuthority := readonly x.spend
  tokenProgram := readonly tokenProgram
  remainingAccounts := []

def execute (x : SampleDigests) : ExecuteCallbackAuthenticatedProbeV0 where
  toEnvelope := { envelope market with engineProgram := readonly RoutedPlan.ID }
  spendAuthority := readonly x.spend
  primaryCallback := readonly x.primaryCallback
  commitCallback := readonly x.commitCallback
  remainingAccounts := [writable opaqueAccount, readonly opaqueAccount]

def executeArgs (timingMode : UInt8) (x : SampleDigests) :
    ExecuteCallbackAuthenticatedProbeV0Args where
  amountIn := 100
  maxTotalInputDebit := 101
  minOutputCredit := 90
  maxProtocolFee := 1
  expiresAtSlot := 100
  authorizationNonce := key 7
  expectedEngineSequence := 0
  timingMode := timingMode
  expectedCapabilityHash := x.authorized
  opaquePayload := [7]

/-- The accounts of the execution once both sides hold a deposit of 1000. -/
def data : EnvelopeData where
  market := newMarket opening (openingArgs market) ⟨255, 255, 255, 255, 255, 255⟩
  domain := { newDomain opening (openingArgs market) ⟨255, 255, 255, 255, 255, 255⟩ with
    accountedA := 1000, accountedB := 1000 }
  feeLedger := newFeeLedger opening ⟨255, 255, 255, 255, 255, 255⟩
  mintA := ⟨none, 0, 6, true, none⟩
  mintB := ⟨none, 0, 6, true, none⟩
  userSourceA := { newTokenAccount mintA user with amount := 999000 }
  userDestinationB := newTokenAccount mintB user
  vaultA := { newTokenAccount mintA market.domain with amount := 1000 }
  vaultB := { newTokenAccount mintB market.domain with amount := 1000 }
  feeVault := newTokenAccount mintA market.feeLedger

def after : EnvelopeData :=
  { data with
    userSourceA := { data.userSourceA with amount := 998899 }
    userDestinationB := { data.userDestinationB with amount := 90 }
    vaultA := { data.vaultA with amount := 1100 }
    vaultB := { data.vaultB with amount := 910 }
    feeVault := { data.feeVault with amount := 1 } }

def settlement : AcceptedSettlement := ⟨1, 101, 90, 1100, 910, 1⟩

def intent (timingMode : UInt8) (x : SampleDigests) : Wire.Routed.IntentBinding :=
  boundIntent (execute x) data (executeArgs timingMode x) 1 x.authorized x.payload

/-- What the market's accounts look like to a phase of the engine. -/
def descriptors (isWritable : Bool) : List Wire.CapabilityDescriptor :=
  [⟨engineState, RoutedPlan.ID, isWritable, false, false⟩,
    ⟨opaqueAccount, key 5, isWritable, false, false⟩,
    ⟨opaqueAccount, key 5, isWritable, false, false⟩]

def executionBinding (x : SampleDigests) (phase : UInt8) (context : Hash) (capability : Hash) :
    Wire.Routed.ExecutionBinding where
  phase := phase
  intentDigest := x.intent
  phaseContextDigest := context
  market := market.market
  domain := market.domain
  engineRevision := 1
  amountIn := 100
  protocolFee := 1
  accountedInputBefore := 1000
  accountedOutputBefore := 1000
  accountedFeeBefore := 0
  preSequence := 0
  authorizedCapabilityHash := x.authorized
  phaseCapabilityHash := capability
  opaqueAccountCount := 2
  payloadLen := 1
  payload := (Bytes.zero _).modify 0 fun _ => 7

def receipt (x : SampleDigests) (phase : UInt8) (execution : Hash) (stateSequence : UInt64) :
    Wire.Routed.EngineReceipt :=
  ⟨phase, x.intent, execution, 90, stateSequence⟩

/-- What is known of one digest: its preimage, where the encoding exists. -/
def known (hashDomain : List UInt8) (encoded : Wire.WireResult (List UInt8)) (digest : Hash) :
    List (List UInt8 × Hash) :=
  match encoded with
  | .ok encoded => [(hashDomain ++ encoded, digest)]
  | .error _ => []

def executionDigests (timingMode : UInt8) (x : SampleDigests) : List (List UInt8 × Hash) :=
  let derived (seeds : List (List UInt8)) : List UInt8 :=
    (seeds ++ [[255], ID.toList, pdaMarker]).flatten
  let phase := if timingMode = timingSingle then phaseTransition else phasePrepare
  let sequence : UInt64 := if timingMode = timingSingle then 1 else 0
  let capability := if timingMode = timingSingle then x.authorized else x.readOnly
  [(Wire.Routed.capabilityHashDomain ++ Wire.encodedCapabilities RoutedPlan.ID (descriptors true),
      x.authorized),
    (Wire.Routed.capabilityHashDomain ++ Wire.encodedCapabilities RoutedPlan.ID
      (descriptors false), x.readOnly),
    (Wire.Routed.payloadHashDomain ++ Wire.encodedPayload [7], x.payload),
    (derived [spendAuthoritySeedV0, sourceA.toList, x.intent.toList], x.spend),
    (derived ((execute x).callbackSeeds x.intent phase), x.primaryCallback),
    (derived ((execute x).callbackSeeds x.intent phaseCommit), x.commitCallback)] ++
  known Wire.Routed.intentHashDomain (Wire.Routed.encodeIntentBinding (intent timingMode x))
    x.intent ++
  known Wire.Routed.executionHashDomain (Wire.Routed.encodeExecutionBinding
    (executionBinding x phase (Bytes.zero 32) capability)) x.execution ++
  known Wire.Routed.receiptHashDomain (Wire.Routed.encodeReceipt
    (receipt x phase x.execution sequence)) x.receipt ++
  known Wire.Routed.settlementHashDomain (Wire.Routed.encodeSettlementBinding
    (settlementBinding after (executeArgs timingMode x) settlement x.intent x.execution x.receipt))
    x.settlement ++
  known Wire.Routed.executionHashDomain (Wire.Routed.encodeExecutionBinding
    (executionBinding x phaseCommit x.settlement x.authorized)) x.commitExecution ++
  known Wire.Routed.receiptHashDomain (Wire.Routed.encodeReceipt
    (receipt x phaseCommit x.commitExecution 1)) x.commitReceipt

@[reducible]
def crypto : Crypto := .ofKnown (digests config market ++ executionDigests timingSingle single ++
  executionDigests timingPrepareCommit twoPhase) [user]

attribute [local instance] crypto

/-- The reference engine, called at slot 50. -/
def env : Env config where
  slot := 50
  stackHeight := 1
  callee := RoutedPlan.respond fun _ _ => none

def wireIntent (timingMode : UInt8) (x : SampleDigests) : AuthorizeSpendV0Args where
  wireIntent := match Wire.Routed.encodeIntentBinding (intent timingMode x) with
    | .ok encoded => if h : encoded.length = _ then ⟨encoded, h⟩ else default
    | .error _ => default

def opOpening : Op := .initializeMarketDomainV0 opening (openingArgs market)

def opDepositA : Op :=
  .depositV0 depositA ⟨assetAIndexV0, 1000⟩ (.of_onCurve (by decide +kernel))

def opDepositB : Op :=
  .depositV0 (depositB market) ⟨assetBIndexV0, 1000⟩ (.of_onCurve (by decide +kernel))

def opAuthorize (timingMode : UInt8) (x : SampleDigests) : Op :=
  .authorizeSpendV0 env (authorize x) (wireIntent timingMode x) (.of_onCurve (by
    simp only [AuthorizeSpendV0.infos, authorize, List.append_nil, List.mem_cons,
      List.not_mem_nil, or_false]
    rintro info (rfl | rfl | rfl | rfl | rfl) hsigner
    · decide +kernel
    all_goals cases hsigner))

def opExecute (timingMode : UInt8) (x : SampleDigests) : Op :=
  .executeCallbackAuthenticatedProbeV0 env (execute x) (executeArgs timingMode x)

def txs (timingMode : UInt8) (x : SampleDigests) : List (List Op) :=
  [[opOpening], [opDepositA, opDepositB], [opAuthorize timingMode x], [opExecute timingMode x]]

/-- A ledger in which the execution can take place: the accounts of the market, each side with
its deposit, and a source that is authorized. -/
def live (timingMode mode : UInt8) (x : SampleDigests) : Ledger := .ofList [
  (market.market, ⟨ID, false, .state (.market data.market)⟩),
  (market.domain, ⟨ID, false, .state (.domain data.domain)⟩),
  (market.feeLedger, ⟨ID, false, .state (.feeLedger data.feeLedger)⟩),
  (mintA, mintAccount), (mintB, mintAccount),
  (sourceA, ⟨tokenProgram, false, .token
    { data.userSourceA with delegate := some x.spend, delegatedAmount := 101 }⟩),
  (destinationB, ⟨tokenProgram, false, .token data.userDestinationB⟩),
  (market.vaultA, ⟨tokenProgram, false, .token data.vaultA⟩),
  (market.vaultB, ⟨tokenProgram, false, .token data.vaultB⟩),
  (market.feeVault, ⟨tokenProgram, false, .token data.feeVault⟩),
  (RoutedPlan.ID, program), (engineState, engineAccount timingMode mode),
  (opaqueAccount, ⟨key 5, false, .raw [0]⟩), (tokenProgram, program)]

/-- The world in which the user of the sample authorizes the execution. -/
def deposited (timingMode : UInt8) : Core.World :=
  (run Op.step (world (genesis timingMode RoutedPlan.modeAccept))
    [[opOpening], [opDepositA, opDepositB]]).1

/-- The world in which the execution of the sample is submitted. -/
def authorized (timingMode : UInt8) (x : SampleDigests) : Core.World :=
  ((opAuthorize timingMode x).handle.run (deposited timingMode)).2

/-- The world the execution leaves. -/
def executed (timingMode : UInt8) (x : SampleDigests) : Core.World :=
  ((opExecute timingMode x).handle.run (authorized timingMode x)).2

end Sample

section Solvency

variable [Crypto]

/-- Solvency and exact history over whole runs: whoever relays the executions and whatever the
engines do in the phases they are called in. -/
theorem relayed_run_solvent (w : Core.World) (h : Genesis config w.ledger) (hlog : w.log = [])
    (txs : List (List Op)) :
    (∀ key m, (run Op.step w txs).1.ledger.state? ID key = some (.market m) →
      ∃ r, r.market = m ∧ MarketOk config (run Op.step w txs).1.ledger key r ∧
        r.domain.accountedA ≤ r.vaultA.amount ∧ r.domain.accountedB ≤ r.vaultB.amount ∧
        r.feeLedger.accountedFeeA ≤ r.feeVault.amount ∧
        (∀ v ∈ [r.vaultA, r.vaultB, r.feeVault], v.delegate = none ∧ v.closeAuthority = none) ∧
        r.domain.accountedA.toNat =
          ((emittedEvents (run Op.step w txs).1.log).map
            (CoreEvent.deposited assetAIndexV0 key)).sum +
          ((emittedEvents (run Op.step w txs).1.log).map (CoreEvent.amountIn key)).sum ∧
        r.domain.accountedB.toNat +
            ((emittedEvents (run Op.step w txs).1.log).map (CoreEvent.amountOut key)).sum =
          ((emittedEvents (run Op.step w txs).1.log).map
            (CoreEvent.deposited assetBIndexV0 key)).sum ∧
        r.feeLedger.accountedFeeA.toNat =
          ((emittedEvents (run Op.step w txs).1.log).map (CoreEvent.protocolFee key)).sum) ∧
    List.Forall₂ Op.Recorded ((run Op.step w txs).2.filter Op.isCore)
      (emittedEvents (run Op.step w txs).1.log) ∧
    ∀ tx e, runTx Op.step tx (run Op.step w txs).1 = .error e →
      run Op.step w (txs ++ [tx]) = run Op.step w txs := by
  obtain ⟨hbooked, hrecorded⟩ := run_booked h hlog txs
  refine ⟨fun key m hm => ?_, hrecorded, fun tx e he => ?_⟩
  · exact hbooked.market hm
  · unfold run at he ⊢
    rw [List.foldl_append, List.foldl_cons, List.foldl_nil, Transactions.commit, he]

end Solvency

section Sample

attribute [local instance] Sample.crypto

open Core.Sample ProgrammableSolana.Wire.Routed

theorem sample_genesis (timingMode mode : UInt8) :
    Genesis config (world (Sample.genesis timingMode mode)).ledger := by
  have hID : Engines.RoutedPlan.ID ≠ config.ID := by decide
  have hengine : (Sample.engineAccount timingMode mode).owner ≠ config.ID := hID
  refine Genesis.ofList fun p hp => ?_
  simp only [List.mem_cons, List.not_mem_nil, or_false] at hp
  rcases hp with rfl | rfl | rfl | rfl | rfl | rfl | rfl | rfl | rfl | rfl
  case inr.inr.inr.inr.inr.inr.inl => exact hengine
  all_goals decide

theorem sample_supply :
    totalBalance (world (Sample.live timingPrepareCommit 0 Sample.twoPhase)).ledger
        Core.Sample.mintA = 1000000 ∧
      totalBalance (world (Sample.live timingPrepareCommit 0 Sample.twoPhase)).ledger
        Core.Sample.mintB = 1000 := by
  unfold Sample.live world
  rw [totalBalance_ofList (by decide +kernel), totalBalance_ofList (by decide +kernel)]
  decide +kernel

theorem sample_executes : (Sample.opExecute timingPrepareCommit Sample.twoPhase).handle.run
    (Sample.authorized timingPrepareCommit Sample.twoPhase) =
      (.ok (), Sample.executed timingPrepareCommit Sample.twoPhase) :=
  Exec.run_of_fst (by decide +kernel)

private theorem sample_run :
    (run Op.step (world (Sample.genesis timingPrepareCommit 0))
      (Sample.txs timingPrepareCommit Sample.twoPhase)).1.ledger.state? ID Sample.market.market =
        some (.market Sample.data.market) ∧
    let events := emittedEvents (run Op.step (world (Sample.genesis timingPrepareCommit 0))
      (Sample.txs timingPrepareCommit Sample.twoPhase)).1.log
    (events.map (CoreEvent.deposited assetAIndexV0 Sample.market.market)).sum = 1000 ∧
      (events.map (CoreEvent.amountIn Sample.market.market)).sum = 100 ∧
      (events.map (CoreEvent.amountOut Sample.market.market)).sum = 90 ∧
      (events.map (CoreEvent.protocolFee Sample.market.market)).sum = 1 := by
  decide +kernel

theorem relayed_run_solvent_sample : ∃ r, r.market = Sample.data.market ∧
    MarketOk config (run Op.step (world (Sample.genesis timingPrepareCommit 0))
      (Sample.txs timingPrepareCommit Sample.twoPhase)).1.ledger Sample.market.market r ∧
    r.domain.accountedA.toNat = 1100 ∧ 1100 ≤ r.vaultA.amount.toNat ∧
    r.feeLedger.accountedFeeA.toNat = 1 := by
  obtain ⟨hm, hA, hin, -, hfee⟩ := sample_run
  obtain ⟨h, -, -⟩ := relayed_run_solvent (world (Sample.genesis timingPrepareCommit 0))
    (sample_genesis _ _) rfl (Sample.txs timingPrepareCommit Sample.twoPhase)
  obtain ⟨r, hrm, hr, hcovers, -, -, -, hbooks, -, hbookFee⟩ := h _ _ hm
  rw [hA, hin] at hbooks
  rw [hfee] at hbookFee
  rw [UInt64.le_iff_toNat_le, hbooks] at hcovers
  exact ⟨r, hrm, hr, hbooks, hcovers, hbookFee⟩

end Sample

end ProgrammableSolana.Routed
