import ProgrammableSolana.Lib.Transactions

/-! The charging rule: where every move of a run is paid for out of what was granted before it, so
is the whole run. -/
namespace ProgrammableSolana.Lib.Transactions

variable {σ ε ω : Type} {step : ω → σ → Except ε σ}

/-- What a move costs and leaves standing is covered by what stood before it and what was granted
in it. -/
def Paid (standing granted : σ → ℕ) (cost : Move σ ω → ℕ) (x : Move σ ω) : Prop :=
  standing x.after + cost x + granted x.before ≤ standing x.before + granted x.after

variable {standing granted : σ → ℕ} {cost : Move σ ω → ℕ}

theorem traceTx_paid {tx : List ω} {s s' : σ} (h : runTx step tx s = .ok s')
    (hpaid : ∀ x ∈ traceTx step tx s, Paid standing granted cost x) :
    standing s' + ((traceTx step tx s).map cost).sum + granted s ≤ standing s + granted s' := by
  induction tx generalizing s with
  | nil =>
    cases h
    simp [traceTx]
  | cons o os ih =>
    obtain ⟨s₁, ho, hos⟩ := runTx_cons_ok_iff.mp h
    unfold traceTx at hpaid ⊢
    rw [ho] at hpaid ⊢
    obtain ⟨hfirst, hrest⟩ := List.forall_mem_cons.mp hpaid
    have htail := ih hos hrest
    have hhead : standing s₁ + cost ⟨s, o, s₁⟩ + granted s ≤ standing s + granted s₁ := hfirst
    simp only [List.map_cons, List.sum_cons]
    omega

/-- The charging rule: the moves of a run cost no more altogether than what stood at its start and
what was granted along it. -/
theorem trace_paid {txs : List (List ω)} {s : σ}
    (hpaid : ∀ x ∈ trace step txs s, Paid standing granted cost x) :
    standing (run step s txs).1 + ((trace step txs s).map cost).sum + granted s ≤
      standing s + granted (run step s txs).1 := by
  induction txs generalizing s with
  | nil => simp [trace, run]
  | cons tx txs ih =>
    have hrun : (run step s (tx :: txs)).1 = (run step (commit step (s, []) tx).1 txs).1 := by
      unfold run
      rw [List.foldl_cons, foldl_commit_history (commit step (s, []) tx).1]
    rw [hrun]
    unfold trace at hpaid ⊢
    unfold commit
    cases h : runTx step tx s with
    | error e =>
      rw [h] at hpaid
      exact ih hpaid
    | ok s' =>
      rw [h] at hpaid
      obtain ⟨hfirst, hrest⟩ := List.forall_mem_append.mp hpaid
      have htx := traceTx_paid h hfirst
      have htail := ih hrest
      simp only [List.map_append, List.sum_append]
      omega

/-- What every move keeps, the run keeps. -/
theorem trace_invariant {P : σ → Prop} {txs : List (List ω)} {s : σ} (h₀ : P s)
    (hmove : ∀ x ∈ trace step txs s, P x.before → P x.after) : P (run step s txs).1 := by
  have hordered : Ordered (fun t u => P t → P u) s (run step s txs).1 (trace step txs s) :=
    trace_ordered (fun _ => id) (fun _ _ _ h h' ht => h' (h ht)) hmove
  exact hordered.reaches h₀

/-- Where nothing stood at the start, all that is paid was granted along the run. -/
theorem trace_paid_from_nothing {txs : List (List ω)} {s : σ} (hs : standing s = 0)
    (hpaid : ∀ x ∈ trace step txs s, Paid standing granted cost x) :
    ((trace step txs s).map cost).sum + granted s ≤ granted (run step s txs).1 := by
  have h := trace_paid hpaid
  omega

/-- Adding up what passes a test is adding up with nothing for the rest. -/
theorem sum_map_filter {α : Type} (p : α → Prop) [DecidablePred p] (f : α → ℕ) (l : List α) :
    (l.map fun a => if p a then f a else 0).sum = ((l.filter fun a => p a).map f).sum := by
  rw [List.sum_map_ite]
  simp

/-- Counting is adding up ones. -/
theorem sum_map_one {α : Type} (p : α → Prop) [DecidablePred p] (l : List α) :
    (l.map fun a => if p a then 1 else 0).sum = l.countP fun a => p a := by
  rw [sum_map_filter, List.countP_eq_length_filter]
  simp

end ProgrammableSolana.Lib.Transactions
