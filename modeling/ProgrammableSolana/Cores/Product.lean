import ProgrammableSolana.Core.Growth
import ProgrammableSolana.Generated.Reference
import ProgrammableSolana.Generated.Runs
import ProgrammableSolana.Routed.Reference
import ProgrammableSolana.Routed.Runs

/-! The product of the accounted reserves of a market that a reference engine serves. -/
namespace ProgrammableSolana.Cores

open ProgrammableSolana.Lib ProgrammableSolana.Solana ProgrammableSolana.Core
open ProgrammableSolana.Engines
open ProgrammableSolana.Lib.Transactions (Move Ordered run trace trace_isStep trace_ordered
  trace_singleton)

/-- The accounted product, as an unbounded number. -/
def product (x : DomainV0) : ℕ := x.accountedA.toNat * x.accountedB.toNat

/-- Every domain of the market still is one of it, with at least the product it had. -/
def Compounds (cfg : Config) (market : Pubkey) (L L' : Ledger) : Prop :=
  ∀ k x, L.state? cfg.ID k = some (.domain x) → x.market = market →
    ∃ x', L'.state? cfg.ID k = some (.domain x') ∧ x'.market = market ∧ product x ≤ product x'

/-- What a trade does to the reserves of its domain. -/
structure Raised (x x' : DomainV0) : Prop where
  before : 0 < x.accountedA ∧ 0 < x.accountedB
  after : 0 < x'.accountedA ∧ 0 < x'.accountedB
  input : x.accountedA < x'.accountedA
  output : x'.accountedB < x.accountedB
  product : product x ≤ product x'

/-- The domain at the key was traded against. -/
def Traded (cfg : Config) (L L' : Ledger) (k : Pubkey) : Prop :=
  ∃ x x', L.state? cfg.ID k = some (.domain x) ∧ L'.state? cfg.ID k = some (.domain x') ∧
    Raised x x'

/-- What holds of the moves of a run, where `trades` says which domain of the market an operation
trades against. -/
structure ProductRun {ω : Type} (cfg : Config) (market : Pubkey) (trades : ω → Pubkey → Prop)
    (w w' : World) (moves : List (Move World ω)) : Prop where
  compounds : ∀ x ∈ moves, Compounds cfg market x.before.ledger x.after.ledger
  ordered : Ordered (fun w w' : World => Compounds cfg market w.ledger w'.ledger) w w' moves
  traded : ∀ x ∈ moves, ∀ k, trades x.op k → Traded cfg x.before.ledger x.after.ledger k

section Products

variable {cfg : Config} {market : Pubkey} {L L' L'' : Ledger}

theorem Compounds.refl (L : Ledger) : Compounds cfg market L L :=
  fun _ x hx hm => ⟨x, hx, hm, le_rfl⟩

theorem Compounds.trans (h : Compounds cfg market L L') (h' : Compounds cfg market L' L'') :
    Compounds cfg market L L'' := by
  intro k x hx hm
  obtain ⟨x', hx', hm', hle⟩ := h k x hx hm
  obtain ⟨x'', hx'', hm'', hle'⟩ := h' k x' hx' hm'
  exact ⟨x'', hx'', hm'', hle.trans hle'⟩

/-- Where no Core account is written, no product falls. -/
theorem compounds_of_same (h : ∀ k s, L.state? cfg.ID k = some s → L' k = L k) :
    Compounds cfg market L L' := by
  intro k x hx hm
  exact ⟨x, (Ledger.state?_congr (h k _ hx)).trans hx, hm, le_rfl⟩

/-- Where one domain is written, its product is all there is to look at. -/
theorem compounds_of_domain {key : Pubkey} {x x' : DomainV0}
    (hx : L.state? cfg.ID key = some (.domain x)) (hx' : L'.state? cfg.ID key = some (.domain x'))
    (hm : x'.market = x.market) (hle : x.market = market → product x ≤ product x')
    (hframe : ∀ k y, L.state? cfg.ID k = some (.domain y) → k ≠ key → L' k = L k) :
    Compounds cfg market L L' := by
  intro k y hy hmarket
  by_cases hk : k = key
  · subst hk
    rw [hx, Option.some.injEq, CoreState.domain.injEq] at hy
    subst hy
    exact ⟨x', hx', hm.trans hmarket, hle hmarket⟩
  · exact ⟨y, (Ledger.state?_congr (hframe k y hy hk)).trans hy, hmarket, le_rfl⟩

private theorem accountsFor_product {domain domain' : DomainV0} {amount : ℕ} {index bump : UInt8}
    (h : AccountsFor domain amount index bump domain') :
    domain'.market = domain.market ∧ product domain ≤ product domain' := by
  unfold product
  cases h with
  | assetA h =>
    refine ⟨rfl, Nat.mul_le_mul_right _ ?_⟩
    dsimp only
    omega
  | assetB h =>
    refine ⟨rfl, Nat.mul_le_mul_left _ ?_⟩
    dsimp only
    omega

private theorem raised_of_quote {x : DomainV0} {postA postB amountIn amountOut : UInt64} {fee : UInt16}
    {q : CpmmQuote} (hq : quoteExactIn x.accountedA x.accountedB amountIn fee = .ok q)
    (hout : amountOut = q.amountOut) (hA : postA.toNat = x.accountedA.toNat + amountIn.toNat)
    (hB : x.accountedB.toNat = postB.toNat + amountOut.toNat) :
    Raised x { x with accountedA := postA, accountedB := postB } := by
  obtain ⟨hin, houtput, hgross, -, hamount, hpos, hlt⟩ := quoteExactIn_ok hq
  rw [← hout] at hamount hpos hlt
  have hzero : (0 : UInt64).toNat = 0 := rfl
  constructor
  · simp only [UInt64.lt_iff_toNat_lt]
    omega
  · simp only [UInt64.lt_iff_toNat_lt]
    omega
  · show x.accountedA < postA
    rw [UInt64.lt_iff_toNat_lt]
    omega
  · show postB < x.accountedB
    rw [UInt64.lt_iff_toNat_lt]
    omega
  · unfold product
    show x.accountedA.toNat * x.accountedB.toNat ≤ postA.toNat * postB.toNat
    have hrest : postB.toNat = x.accountedB.toNat - amountOut.toNat := by omega
    rw [hA, hrest]
    exact product_le (effectiveInputOf_le amountIn.toNat fee.toNat) hamount

variable [Crypto]

private theorem deposited_compounds {a : DepositV0} {args : DepositV0Args} {d : DepositData}
    (h : Deposited cfg L L' a args d) : Compounds cfg market L L' := by
  obtain ⟨bump, domain, hacc, -, hdomain⟩ := h.accounted
  obtain ⟨hm, hle⟩ := accountsFor_product hacc
  exact compounds_of_domain h.domain hdomain hm (fun _ => hle)
    fun k y hy hk => h.state_kept hy hk

section Execution

variable {e : Envelope} {d after : EnvelopeData} {authority : Pubkey} {t : SettleTerms}
  {post : PostAccounted} {engine : Pubkey → Bool}

/-- The quote an execution has settled, where the market is the one looked at. -/
def Quoted (market : Pubkey) (e : Envelope) (d : EnvelopeData) (t : SettleTerms) : Prop :=
  e.market.key = market → ∃ fee q,
    quoteExactIn d.domain.accountedA d.domain.accountedB t.amountIn fee = .ok q ∧
      t.amountOut = q.amountOut

private theorem executed_raised (h : Executed cfg L L' e d after authority t post engine)
    (hquoted : Quoted market e d t) (hm : e.market.key = market) :
    Raised d.domain { d.domain with accountedA := post.a, accountedB := post.b } := by
  obtain ⟨fee, q, hq, hout⟩ := hquoted hm
  exact raised_of_quote hq hout h.postA h.postB

private theorem executed_traded (h : Executed cfg L L' e d after authority t post engine)
    (hquoted : Quoted market e d t) (hm : e.market.key = market) :
    Traded cfg L L' e.domain.key :=
  ⟨d.domain, _, h.bound.domain, h.domain, executed_raised h hquoted hm⟩

private theorem executed_compounds (h : Executed cfg L L' e d after authority t post engine)
    (hquoted : Quoted market e d t) : Compounds cfg market L L' := by
  apply compounds_of_domain h.bound.domain h.domain rfl
  · intro hm
    rw [h.bound.domainMarket] at hm
    exact (executed_raised h hquoted hm).product
  · intro k y hy hk
    refine h.core_frame (Ledger.state?_eq_some.mp hy).1 hk ?_
    rintro rfl
    rw [h.bound.feeLedger] at hy
    cases hy

end Execution

omit [Crypto] in
/-- The products of a whole run from those of its steps. -/
theorem productRun_of_steps {ω : Type} {step : ω → World → Result World}
    {trades : ω → Pubkey → Prop} {served : Move World ω → Prop}
    (hcompounds : ∀ x : Move World ω, step x.op x.before = .ok x.after → served x →
      Compounds cfg market x.before.ledger x.after.ledger)
    (htraded : ∀ x : Move World ω, step x.op x.before = .ok x.after → served x →
      ∀ k, trades x.op k → Traded cfg x.before.ledger x.after.ledger k)
    {w : World} {txs : List (List ω)} (hserved : ∀ x ∈ trace step txs w, served x) :
    ProductRun cfg market trades w (run step w txs).1 (trace step txs w) := by
  have hmoves : ∀ x ∈ trace step txs w, Compounds cfg market x.before.ledger x.after.ledger :=
    fun x hx => hcompounds x (trace_isStep x hx) (hserved x hx)
  constructor
  · exact hmoves
  · exact trace_ordered (fun w => .refl w.ledger) (fun _ _ _ h h' => h.trans h') hmoves
  · exact fun x hx => htraded x (trace_isStep x hx) (hserved x hx)

end Products

section GeneratedCore

variable [Crypto]

/-- The operation executes against the domain of the market. -/
def GeneratedTrades (market : Pubkey) (o : Generated.Op) (k : Pubkey) : Prop :=
  ∃ env a args hsigners, o = .executeEngineGeneratedProbeV0 env a args hsigners ∧
    a.market.key = market ∧ a.domain.key = k

/-- Where the move executes on the market, the reference engine serves it. -/
def GeneratedServed (market : Pubkey) (x : Move Core.World Generated.Op) : Prop :=
  ∀ env a args hsigners, x.op = .executeEngineGeneratedProbeV0 env a args hsigners →
    a.market.key = market → Generated.Served env x.before a

private theorem generated_quoted {env : Env Generated.config}
    {a : Generated.ExecuteEngineGeneratedProbeV0}
    {args : Generated.ExecuteEngineGeneratedProbeV0Args} {w w' : Core.World} {u : Unit}
    {d after : EnvelopeData} {call : Generated.GeneratedCall}
    {receipt : Wire.Generated.EngineReceipt} {plan : Generated.AcceptedEnginePlan}
    {market : Pubkey}
    (hrun : (Generated.handleExecuteEngineGeneratedProbeV0 env a args).run w = (.ok u, w'))
    (h : Generated.EngineGenerated env w w' a args d after call receipt plan)
    (hserved : a.market.key = market → Generated.Served env w a) :
    Quoted market a.toEnvelope d (plan.terms args) := by
  intro hm
  obtain ⟨c, hcalls, hanswered⟩ := Generated.execute_answered hrun
  obtain ⟨state, q, -, hq, hout⟩ := h.quoted (hserved hm) hcalls hanswered
  exact ⟨state.lpFeeBps, q, hq, hout⟩

private theorem generated_compounds {market : Pubkey} (x : Move Core.World Generated.Op)
    (h : x.op.step x.before = .ok x.after) (hserved : GeneratedServed market x) :
    Compounds Generated.config market x.before.ledger x.after.ledger := by
  obtain ⟨w, o, w'⟩ := x
  have h := Exec.transact_ok_iff.mp h
  cases o with
  | initializeMarketDomainV0 a args =>
    obtain ⟨bumps, hinit⟩ := initialize_ok h
    exact compounds_of_same fun _ _ => hinit.same
  | depositV0 a args hsigners =>
    obtain ⟨d, hdeposit⟩ := deposit_ok h
    exact deposited_compounds hdeposit
  | executeEngineGeneratedProbeV0 env a args hsigners =>
    obtain ⟨d, after, call, receipt, plan, hg⟩ := Generated.execute_ok h
    apply executed_compounds hg.executed
    exact generated_quoted h hg (hserved env a args hsigners rfl)
  | external action => exact compounds_of_same fun _ _ => external_same Generated.config h

private theorem generated_traded {market : Pubkey} (x : Move Core.World Generated.Op)
    (h : x.op.step x.before = .ok x.after) (hserved : GeneratedServed market x) (k : Pubkey)
    (htrades : GeneratedTrades market x.op k) :
    Traded Generated.config x.before.ledger x.after.ledger k := by
  obtain ⟨w, o, w'⟩ := x
  obtain ⟨env, a, args, hsigners, rfl, hm, rfl⟩ := htrades
  have h := Exec.transact_ok_iff.mp h
  obtain ⟨d, after, call, receipt, plan, hg⟩ := Generated.execute_ok h
  apply executed_traded hg.executed ?_ hm
  exact generated_quoted h hg (hserved env a args hsigners rfl)

end GeneratedCore

section RoutedCore

variable [Crypto]

/-- The operation executes against the domain of the market. -/
def RoutedTrades (market : Pubkey) (o : Routed.Op) (k : Pubkey) : Prop :=
  ∃ env a args, o = .executeCallbackAuthenticatedProbeV0 env a args ∧
    a.market.key = market ∧ a.domain.key = k

/-- Where the move executes on the market, the reference engine serves it. -/
def RoutedServed (market : Pubkey) (x : Move Core.World Routed.Op) : Prop :=
  ∀ env a args, x.op = .executeCallbackAuthenticatedProbeV0 env a args →
    a.market.key = market → Routed.Served env x.before a

private theorem routed_quoted {env : Env Routed.config} {a : Routed.ExecuteCallbackAuthenticatedProbeV0}
    {args : Routed.ExecuteCallbackAuthenticatedProbeV0Args} {w w₁ w₂ w₃ w' : Core.World}
    {x : Routed.Stages} {u : Unit} {market : Pubkey}
    (hrun : (Routed.handleExecuteCallbackAuthenticatedProbeV0 env a args).run w = (.ok u, w'))
    (h : Routed.CallbackAuthenticated env w w₁ w₂ w₃ w' a args x)
    (hserved : a.market.key = market → Routed.Served env w a) :
    Quoted market a.toEnvelope x.d (x.settlement.terms args) := by
  intro hm
  obtain ⟨c, cs, hcalls, hanswered⟩ := Routed.execute_answered hrun
  obtain ⟨hfirst, -⟩ := List.forall_mem_cons.mp hanswered
  obtain ⟨state, q, -, hq, hout⟩ := h.quoted (hserved hm) hcalls hfirst
  exact ⟨state.lpFeeBps, q, hq, hout⟩

private theorem routed_compounds {market : Pubkey} (x : Move Core.World Routed.Op)
    (h : x.op.step x.before = .ok x.after) (hserved : RoutedServed market x) :
    Compounds Routed.config market x.before.ledger x.after.ledger := by
  obtain ⟨w, o, w'⟩ := x
  have h := Exec.transact_ok_iff.mp h
  cases o with
  | initializeMarketDomainV0 a args =>
    obtain ⟨bumps, hinit⟩ := initialize_ok h
    exact compounds_of_same fun _ _ => hinit.same
  | depositV0 a args hsigners =>
    obtain ⟨d, hdeposit⟩ := deposit_ok h
    exact deposited_compounds hdeposit
  | authorizeSpendV0 env a args hsigners =>
    obtain ⟨t, i, mint, decimals, e, hauth, -⟩ := Routed.authorize_ok h
    apply compounds_of_same
    intro k s hs
    apply hauth.frame
    exact Ledger.state?_ne_token? hs hauth.source
  | executeCallbackAuthenticatedProbeV0 env a args =>
    obtain ⟨w₁, w₂, w₃, x, hx⟩ := Routed.execute_ok h
    apply executed_compounds hx.executed
    exact routed_quoted h hx (hserved env a args rfl)
  | external action => exact compounds_of_same fun _ _ => external_same Routed.config h

private theorem routed_traded {market : Pubkey} (x : Move Core.World Routed.Op)
    (h : x.op.step x.before = .ok x.after) (hserved : RoutedServed market x) (k : Pubkey)
    (htrades : RoutedTrades market x.op k) :
    Traded Routed.config x.before.ledger x.after.ledger k := by
  obtain ⟨w, o, w'⟩ := x
  obtain ⟨env, a, args, rfl, hm, rfl⟩ := htrades
  have h := Exec.transact_ok_iff.mp h
  obtain ⟨w₁, w₂, w₃, x, hx⟩ := Routed.execute_ok h
  apply executed_traded hx.executed ?_ hm
  exact routed_quoted h hx (hserved env a args rfl)

end RoutedCore

/-- Along every run in which a reference engine serves the executions on a market, the accounted
product of the market never falls, and every trade raises its input reserve and lowers its output
reserve, both of which stay positive. -/
theorem accounted_product_compounds [Crypto] (market : Pubkey) (w : Core.World) :
    (∀ txs : List (List Generated.Op),
      (∀ x ∈ trace Generated.Op.step txs w, GeneratedServed market x) →
      ProductRun Generated.config market (GeneratedTrades market) w (run Generated.Op.step w txs).1
        (trace Generated.Op.step txs w)) ∧
    ∀ txs : List (List Routed.Op),
      (∀ x ∈ trace Routed.Op.step txs w, RoutedServed market x) →
      ProductRun Routed.config market (RoutedTrades market) w (run Routed.Op.step w txs).1
        (trace Routed.Op.step txs w) :=
  ⟨fun _ => productRun_of_steps generated_compounds generated_traded,
    fun _ => productRun_of_steps routed_compounds routed_traded⟩

section Sample

open ProgrammableSolana.Core.Sample
open ProgrammableSolana.Wire.Routed (timingPrepareCommit)

private theorem generated_sample_served : @Generated.Served Generated.Sample.crypto Generated.Sample.env
    (world (Generated.Sample.live 0)) Generated.Sample.execute :=
  @Generated.served_of_stored Generated.Sample.crypto _ _ _ _ _ _ false rfl rfl rfl rfl

private theorem routed_sample_served : @Routed.Served Routed.Sample.crypto Routed.Sample.env
    (world (Routed.Sample.live timingPrepareCommit 0 Routed.Sample.twoPhase))
    (Routed.Sample.execute Routed.Sample.twoPhase) :=
  @Routed.served_of_stored Routed.Sample.crypto _ _ _ _ _ false rfl rfl rfl rfl

theorem accounted_product_compounds_sample :
    (∃ w', (@Generated.Op.step Generated.Sample.crypto Generated.Sample.opExecute)
        (world (Generated.Sample.live 0)) = .ok w' ∧
      Traded Generated.config (Generated.Sample.live 0) w'.ledger
        Generated.Sample.market.domain) ∧
    ∃ w', (@Routed.Op.step Routed.Sample.crypto
        (Routed.Sample.opExecute timingPrepareCommit Routed.Sample.twoPhase))
          (world (Routed.Sample.live timingPrepareCommit 0 Routed.Sample.twoPhase)) = .ok w' ∧
      Traded Routed.config (Routed.Sample.live timingPrepareCommit 0 Routed.Sample.twoPhase)
        w'.ledger Routed.Sample.market.domain := by
  constructor
  · obtain ⟨w', hstep⟩ : ∃ w', @Generated.Op.step Generated.Sample.crypto Generated.Sample.opExecute
        (world (Generated.Sample.live 0)) = .ok w' := ⟨_, Exec.transact_of_ok (by decide +kernel)⟩
    refine ⟨w', hstep, ?_⟩
    obtain ⟨hsigners, hop⟩ : ∃ hsigners, Generated.Sample.opExecute =
        @Generated.Op.executeEngineGeneratedProbeV0 Generated.Sample.crypto Generated.Sample.env
          Generated.Sample.execute Generated.Sample.executeArgs hsigners := ⟨_, rfl⟩
    have hserved := generated_sample_served
    have hm : Generated.Sample.execute.market.key = Generated.Sample.market.market := rfl
    have hk : Generated.Sample.execute.domain.key = Generated.Sample.market.domain := rfl
    have hL : (world (Generated.Sample.live 0)).ledger = Generated.Sample.live 0 := rfl
    rw [hop] at hstep
    rw [← hL, ← hk]
    generalize Generated.Sample.execute = a at hserved hm hsigners hstep
    generalize world (Generated.Sample.live 0) = w at hserved hstep
    generalize Generated.Sample.env = env at hserved hstep
    generalize Generated.Sample.executeArgs = args at hstep
    have hrun := (@accounted_product_compounds Generated.Sample.crypto
      Generated.Sample.market.market w).1
        [[@Generated.Op.executeEngineGeneratedProbeV0 Generated.Sample.crypto env a args hsigners]]
    rw [trace_singleton hstep] at hrun
    refine (hrun ?_).traded _ (List.mem_singleton.mpr rfl) _ ⟨env, a, args, hsigners, rfl, hm, rfl⟩
    intro x hx
    obtain rfl := List.mem_singleton.mp hx
    rintro env' a' args' hsigners' hop' -
    obtain ⟨rfl, rfl, rfl⟩ := Generated.Op.executeEngineGeneratedProbeV0.inj hop'
    exact hserved
  · obtain ⟨w', hstep⟩ : ∃ w', @Routed.Op.step Routed.Sample.crypto
        (Routed.Sample.opExecute timingPrepareCommit Routed.Sample.twoPhase)
          (world (Routed.Sample.live timingPrepareCommit 0 Routed.Sample.twoPhase)) = .ok w' :=
      ⟨_, Exec.transact_of_ok (by decide +kernel)⟩
    refine ⟨w', hstep, ?_⟩
    have hserved := routed_sample_served
    have hm : (Routed.Sample.execute Routed.Sample.twoPhase).market.key =
      Routed.Sample.market.market := rfl
    have hk : (Routed.Sample.execute Routed.Sample.twoPhase).domain.key =
      Routed.Sample.market.domain := rfl
    have hL : (world (Routed.Sample.live timingPrepareCommit 0 Routed.Sample.twoPhase)).ledger =
      Routed.Sample.live timingPrepareCommit 0 Routed.Sample.twoPhase := rfl
    unfold Routed.Sample.opExecute at hstep
    rw [← hL, ← hk]
    generalize Routed.Sample.execute Routed.Sample.twoPhase = a at hserved hm hstep
    generalize world (Routed.Sample.live timingPrepareCommit 0 Routed.Sample.twoPhase) = w
      at hserved hstep
    generalize Routed.Sample.env = env at hserved hstep
    generalize Routed.Sample.executeArgs timingPrepareCommit Routed.Sample.twoPhase = args at hstep
    have hrun := (@accounted_product_compounds Routed.Sample.crypto
      Routed.Sample.market.market w).2
        [[@Routed.Op.executeCallbackAuthenticatedProbeV0 Routed.Sample.crypto env a args]]
    rw [trace_singleton hstep] at hrun
    refine (hrun ?_).traded _ (List.mem_singleton.mpr rfl) _ ⟨env, a, args, rfl, hm, rfl⟩
    intro x hx
    obtain rfl := List.mem_singleton.mp hx
    rintro env' a' args' hop' -
    obtain ⟨rfl, rfl, rfl⟩ := Routed.Op.executeCallbackAuthenticatedProbeV0.inj hop'
    exact hserved

end Sample

end ProgrammableSolana.Cores
