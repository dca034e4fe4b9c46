import Mathlib.Algebra.BigOperators.Finprod

/-! Runs of all-or-nothing transactions over a state, and the rule that lifts what every
successful operation preserves to every run. -/
namespace ProgrammableSolana.Lib.Transactions

variable {σ ε ω : Type} (step : ω → σ → Except ε σ)

/-- The operations of one transaction in order; the first failure fails them all. -/
def runTx : List ω → σ → Except ε σ
  | [], s => .ok s
  | o :: os, s => do
    let s₁ ← step o s
    runTx os s₁

/-- A failed transaction leaves the state and the history as they were. -/
def commit (r : σ × List ω) (tx : List ω) : σ × List ω :=
  match runTx step tx r.1 with
  | .ok s => (s, r.2 ++ tx)
  | .error _ => r

/-- The state after a list of transactions and the operations that took effect, in order. -/
def run (s : σ) (txs : List (List ω)) : σ × List ω := txs.foldl (commit step) (s, [])

/-- An operation that took effect, between the states before and after it. -/
structure Move (σ ω : Type) where
  before : σ
  op : ω
  after : σ

/-- The moves of one transaction, as far as it gets. -/
def traceTx : List ω → σ → List (Move σ ω)
  | [], _ => []
  | o :: os, s =>
    match step o s with
    | .ok s₁ => ⟨s, o, s₁⟩ :: traceTx os s₁
    | .error _ => []

/-- The moves of a run in order: those of the transactions that were committed. -/
def trace : List (List ω) → σ → List (Move σ ω)
  | [], _ => []
  | tx :: txs, s =>
    match runTx step tx s with
    | .ok s' => traceTx step tx s ++ trace txs s'
    | .error _ => trace txs s

variable {step}

theorem runTx_cons_ok_iff {o : ω} {os : List ω} {s s' : σ} :
    runTx step (o :: os) s = .ok s' ↔ ∃ s₁, step o s = .ok s₁ ∧ runTx step os s₁ = .ok s' := by
  rw [runTx]
  cases h : step o s with
  | error e => simp [bind, Except.bind]
  | ok s₁ => simp [bind, Except.bind]

theorem runTx_preserves {P : σ → List ω → Prop} {tx : List ω}
    (hstep : ∀ s hist, ∀ o ∈ tx, ∀ s', P s hist → step o s = .ok s' → P s' (hist ++ [o]))
    {s s' : σ} {hist : List ω} (hP : P s hist) (hrun : runTx step tx s = .ok s') :
    P s' (hist ++ tx) := by
  induction tx generalizing s hist with
  | nil =>
    cases hrun
    simpa using hP
  | cons o os ih =>
    obtain ⟨s₁, ho, hos⟩ := runTx_cons_ok_iff.mp hrun
    have h₁ : P s₁ (hist ++ [o]) := hstep s hist o (by simp) s₁ hP ho
    have h₂ := ih (fun t h o' ho' => hstep t h o' (by simp [ho'])) h₁ hos
    simpa using h₂

theorem commit_preserves {P : σ → List ω → Prop} {tx : List ω}
    (hstep : ∀ s hist, ∀ o ∈ tx, ∀ s', P s hist → step o s = .ok s' → P s' (hist ++ [o]))
    {r : σ × List ω} (hP : P r.1 r.2) : P (commit step r tx).1 (commit step r tx).2 := by
  unfold commit
  split
  · next s hs => exact runTx_preserves hstep hP hs
  · exact hP

/-- The invariant rule: what holds at the start and is kept by every operation that
succeeds holds after every run. -/
theorem run_preserves {P : σ → List ω → Prop} {txs : List (List ω)} {s₀ : σ} (h₀ : P s₀ [])
    (hstep : ∀ s hist, ∀ tx ∈ txs, ∀ o ∈ tx, ∀ s', P s hist → step o s = .ok s' →
      P s' (hist ++ [o])) :
    P (run step s₀ txs).1 (run step s₀ txs).2 := by
  have key : ∀ r : σ × List ω, P r.1 r.2 →
      P (txs.foldl (commit step) r).1 (txs.foldl (commit step) r).2 := by
    clear h₀
    induction txs with
    | nil => exact fun _ h => h
    | cons tx txs ih =>
      intro r hr
      exact ih (fun t h tx' htx' => hstep t h tx' (by simp [htx'])) _
        (commit_preserves (fun t h => hstep t h tx (by simp)) hr)
  exact key (s₀, []) h₀

theorem commit_history (s : σ) (hist : List ω) (tx : List ω) :
    commit step (s, hist) tx = ((commit step (s, []) tx).1, hist ++ (commit step (s, []) tx).2) := by
  unfold commit
  cases runTx step tx s with
  | ok s' => simp
  | error e => simp

theorem foldl_commit_history (s : σ) (hist : List ω) (txs : List (List ω)) :
    txs.foldl (commit step) (s, hist) =
      ((txs.foldl (commit step) (s, [])).1, hist ++ (txs.foldl (commit step) (s, [])).2) := by
  induction txs generalizing s hist with
  | nil => simp
  | cons tx txs ih =>
    simp only [List.foldl_cons]
    rw [commit_history, ih, ih (commit step (s, []) tx).1 (commit step (s, []) tx).2]
    simp

/-- A run goes on from the state it has reached. -/
theorem run_append (s : σ) (txs txs' : List (List ω)) : run step s (txs ++ txs') =
    ((run step (run step s txs).1 txs').1,
      (run step s txs).2 ++ (run step (run step s txs).1 txs').2) := by
  unfold run
  rw [List.foldl_append, ← foldl_commit_history]

/-- Only what was submitted takes effect, in the order in which it was. -/
theorem run_sublist (s : σ) (txs : List (List ω)) :
    (run step s txs).2.Sublist txs.flatten := by
  induction txs generalizing s with
  | nil => exact List.Sublist.refl _
  | cons tx txs ih =>
    have hone : (commit step (s, []) tx).2.Sublist tx := by
      unfold commit
      cases runTx step tx s with
      | ok s' => simp
      | error e => simp
    unfold run at ih ⊢
    rw [List.foldl_cons, foldl_commit_history (commit step (s, []) tx).1, List.flatten_cons]
    exact hone.append (ih _)

theorem traceTx_isStep {tx : List ω} {s : σ} :
    ∀ x ∈ traceTx step tx s, step x.op x.before = .ok x.after := by
  induction tx generalizing s with
  | nil => simp [traceTx]
  | cons o os ih =>
    unfold traceTx
    cases ho : step o s with
    | error e => simp
    | ok s₁ => exact List.forall_mem_cons.mpr ⟨ho, ih⟩

theorem trace_isStep {txs : List (List ω)} {s : σ} :
    ∀ x ∈ trace step txs s, step x.op x.before = .ok x.after := by
  induction txs generalizing s with
  | nil => simp [trace]
  | cons tx txs ih =>
    unfold trace
    cases runTx step tx s with
    | error e => exact ih
    | ok s' => exact List.forall_mem_append.mpr ⟨traceTx_isStep, ih⟩

theorem trace_singleton {o : ω} {s s' : σ} (h : step o s = .ok s') :
    trace step [[o]] s = [⟨s, o, s'⟩] := by
  have hrun : runTx step [o] s = .ok s' := runTx_cons_ok_iff.mpr ⟨s', h, rfl⟩
  unfold trace
  rw [hrun]
  simp only [traceTx, h, trace, List.append_nil]

/-- Moves in line with a preorder of the states: between `s` and `s'`, and each below every later
one. -/
structure Ordered (G : σ → σ → Prop) (s s' : σ) (moves : List (Move σ ω)) : Prop where
  reaches : G s s'
  later : ∀ x ∈ moves, G s x.before
  earlier : ∀ x ∈ moves, G x.after s'
  pairwise : moves.Pairwise fun x y => G x.after y.before

section Order

variable {G : σ → σ → Prop} (hrefl : ∀ s, G s s) (htrans : ∀ s t u, G s t → G t u → G s u)

include hrefl in
theorem Ordered.nil (s : σ) : Ordered G s s ([] : List (Move σ ω)) :=
  ⟨hrefl s, by simp, by simp, .nil⟩

include htrans in
theorem Ordered.append {s t u : σ} {xs ys : List (Move σ ω)} (hx : Ordered G s t xs)
    (hy : Ordered G t u ys) : Ordered G s u (xs ++ ys) := by
  constructor
  · exact htrans _ _ _ hx.reaches hy.reaches
  · intro x hmem
    rcases List.mem_append.mp hmem with hmem | hmem
    · exact hx.later x hmem
    · exact htrans _ _ _ hx.reaches (hy.later x hmem)
  · intro x hmem
    rcases List.mem_append.mp hmem with hmem | hmem
    · exact htrans _ _ _ (hx.earlier x hmem) hy.reaches
    · exact hy.earlier x hmem
  · refine List.pairwise_append.mpr ⟨hx.pairwise, hy.pairwise, ?_⟩
    intro x hmem y hmem'
    exact htrans _ _ _ (hx.earlier x hmem) (hy.later y hmem')

include hrefl htrans

theorem traceTx_ordered {tx : List ω} {s s' : σ} (h : runTx step tx s = .ok s')
    (hmove : ∀ x ∈ traceTx step tx s, G x.before x.after) :
    Ordered G s s' (traceTx step tx s) := by
  induction tx generalizing s with
  | nil =>
    cases h
    exact .nil hrefl _
  | cons o os ih =>
    obtain ⟨s₁, ho, hos⟩ := runTx_cons_ok_iff.mp h
    have htrace : traceTx step (o :: os) s = [⟨s, o, s₁⟩] ++ traceTx step os s₁ := by
      rw [traceTx, ho]
      rfl
    rw [htrace] at hmove ⊢
    obtain ⟨hfirst, hrest⟩ := List.forall_mem_append.mp hmove
    have hmove₁ : G s s₁ := hfirst _ (List.mem_singleton.mpr rfl)
    have hone : Ordered G s s₁ [(⟨s, o, s₁⟩ : Move σ ω)] :=
      ⟨hmove₁, by simp [hrefl], by simp [hrefl], List.pairwise_singleton _ _⟩
    exact hone.append htrans (ih hos hrest)

/-- The order rule: along a whole run every move ends below the start of every later one. -/
theorem trace_ordered {txs : List (List ω)} {s : σ}
    (hmove : ∀ x ∈ trace step txs s, G x.before x.after) :
    Ordered G s (run step s txs).1 (trace step txs s) := by
  induction txs generalizing s with
  | nil => exact .nil hrefl s
  | cons tx txs ih =>
    have hrun : (run step s (tx :: txs)).1 = (run step (commit step (s, []) tx).1 txs).1 := by
      unfold run
      rw [List.foldl_cons, foldl_commit_history (commit step (s, []) tx).1]
    rw [hrun]
    unfold trace at hmove ⊢
    unfold commit
    cases h : runTx step tx s with
    | error e =>
      rw [h] at hmove
      exact ih hmove
    | ok s' =>
      rw [h] at hmove
      obtain ⟨hfirst, hrest⟩ := List.forall_mem_append.mp hmove
      exact (traceTx_ordered hrefl htrans h hfirst).append htrans (ih hrest)

end Order

theorem run_history_of_length {s : σ} {txs : List (List ω)}
    (h : (run step s txs).2.length = txs.flatten.length) : (run step s txs).2 = txs.flatten :=
  (run_sublist s txs).eq_of_length h

end ProgrammableSolana.Lib.Transactions
