import ProgrammableSolana.Lib.Journal
import ProgrammableSolana.Solana.CallTree

/-! An account of one program as a record of what another program reports: where it is written only in calls
the other program made for it, it follows the reports over any run. -/
namespace ProgrammableSolana.Solana

open ProgrammableSolana.Lib

variable {σ ev α ε : Type}

section Keeps

variable (state? : Ledger σ → Option α) (taken : ev → Option ε)
  (step : Option α → Option ε → Option α → Prop)

/-- Between two ledgers a record took up what was reported. -/
def Keeps (L : Ledger σ) (es : List ev) (L' : Ledger σ) : Prop :=
  Journal step (state? L) (es.filterMap taken) (state? L')

variable {state? taken step} {L L' L'' : Ledger σ} {es es' : List ev}

theorem Keeps.of_eq (h : state? L' = state? L) : Keeps state? taken step L [] L' := by
  unfold Keeps
  rw [h]
  exact .refl _

theorem Keeps.trans (h : Keeps state? taken step L es L')
    (h' : Keeps state? taken step L' es' L'') : Keeps state? taken step L (es ++ es') L'' := by
  unfold Keeps at h h' ⊢
  rw [List.filterMap_append]
  exact Journal.trans h h'

/-- Reports of which the same is taken up are as good. -/
theorem Keeps.congr (h : Keeps state? taken step L es L')
    (hes : es.filterMap taken = es'.filterMap taken) : Keeps state? taken step L es' L' := by
  unfold Keeps at h ⊢
  rwa [← hes]

/-- A program's own steps leave the record of another program alone. -/
theorem Keeps.of_ownStep {p engine : Pubkey}
    (hspared : ∀ L L', Spared engine L L' → state? L' = state? L) (hnative : ¬ IsNative engine)
    (hp : p ≠ engine) (h : OwnStep p L L') : Keeps state? taken step L [] L' := by
  have hstep : Spared engine L L' := h engine hp.symm hnative
  exact .of_eq (hspared L L' hstep)

end Keeps

section Recorders

variable [Crypto]

/-- An account of `engine` that is a record of what `core` reports: evaluations, which `core` alone can
ask for, write it, and only what `core` carries through is taken up. -/
structure Recorder (derived : Set Derivation)
    (behaves : List (Frame σ ev) → Invocation σ ev → Prop) (core engine : Pubkey)
    (state? : Ledger σ → Option α) (taken : ev → Option ε)
    (step : Option α → Option ε → Option α → Prop)
    (Evaluating : List (Frame σ ev) → Invocation σ ev → Prop) : Prop where
  native : ¬ IsNative engine
  spared : ∀ L L', Spared engine L L' → state? L' = state? L
  direct : ∀ {root}, Lawful derived behaves root → ∀ {callers t}, root.Under callers t →
    Evaluating callers t → ∃ s outer, callers = s :: outer ∧ s.programId = core
  managed : ∀ {root}, Lawful derived behaves root → ∀ {callers t}, root.Under callers t →
    t.frame.programId = engine → ¬ Evaluating callers t →
    t.calls = [] ∧ Keeps state? taken step t.frame.before [] t.frame.after
  executed : ∀ {root}, Lawful derived behaves root → ∀ {callers t}, root.Under callers t →
    t.frame.programId = core →
    (∀ c ∈ t.calls, ¬ Evaluating (t.frame :: callers) c →
      Keeps state? taken step c.frame.before [] c.frame.after) →
    Keeps state? taken step t.frame.before t.frame.emitted t.frame.after
  neverSelf : ∀ {root}, Lawful derived behaves root → root.NeverSelf Frame.programId core

variable {derived : Set Derivation} {behaves : List (Frame σ ev) → Invocation σ ev → Prop}
  {core engine : Pubkey}
  {state? : Ledger σ → Option α} {taken : ev → Option ε}
  {step : Option α → Option ε → Option α → Prop}
  {Evaluating : List (Frame σ ev) → Invocation σ ev → Prop}

omit [Crypto] in
private theorem emittedBy_of_ne {f : Frame σ ev} (h : f.programId ≠ core) : emittedBy core f = [] := by
  unfold emittedBy
  rw [if_neg h]

/-- Every call but an evaluation keeps the record up to what `core` reported in it. -/
theorem Recorder.tree (h : Recorder derived behaves core engine state? taken step Evaluating)
    {root t : Invocation σ ev} {callers : List (Frame σ ev)} (hlawful : Lawful derived behaves root)
    (ht : root.Under callers t) (hevaluating : ¬ Evaluating callers t) :
    Keeps state? taken step t.frame.before (t.collect (emittedBy core)) t.frame.after := by
  induction t using CallTree.induct generalizing callers with
  | h t ih =>
    rw [CallTree.collect_eq]
    by_cases hcore : t.frame.programId = core
    · have hbelow : ∀ c ∈ t.calls, c.collect (emittedBy core) = [] := by
        intro c hc
        apply CallTree.collect_eq_nil_of_called hlawful.noReentry (h.neverSelf hlawful)
          (fun f hf => emittedBy_of_ne hf) (.call ht hc)
        exact List.mem_map.mpr ⟨t.frame, List.mem_cons_self, hcore⟩
      have hown : emittedBy core t.frame = t.frame.emitted := by
        unfold emittedBy
        rw [if_pos hcore]
      rw [CallTree.collectAll_eq_nil hbelow, hown]
      apply h.executed hlawful ht hcore
      intro c hc hnot
      have hkeeps := ih c hc (.call ht hc) hnot
      rwa [hbelow c hc] at hkeeps
    · rw [emittedBy_of_ne hcore, List.append_nil]
      by_cases hid : t.frame.programId = engine
      · obtain ⟨hnil, hkeeps⟩ := h.managed hlawful ht hid hevaluating
        rw [hnil, CallTree.collectAll]
        exact hkeeps
      · apply (hlawful.sandboxed callers t ht).relates
        · intro L L' hstep
          exact .of_ownStep h.spared h.native hid hstep
        · intro L L' L'' es es' hfirst hsecond
          exact hfirst.trans hsecond
        · intro c hc
          apply ih c hc (.call ht hc)
          intro hev
          obtain ⟨s, outer, hcallers, hs⟩ := h.direct hlawful (.call ht hc) hev
          obtain ⟨hframe, -⟩ := List.cons_eq_cons.mp hcallers
          rw [hframe] at hcore
          exact hcore hs

/-- Over any run, whatever other programs did in it, the record took up what `core` reported. -/
theorem Recorder.run (h : Recorder derived behaves core engine state? taken step Evaluating)
    {L L' : Ledger σ} {ts : List (Invocation σ ev)} (hran : Ran derived behaves L ts L') :
    Keeps state? taken step L (CallTree.collectAll (emittedBy core) ts) L' := by
  apply hran.relates
  · intro L
    exact .of_eq rfl
  · intro L L' L'' es es' hfirst hsecond
    exact hfirst.trans hsecond
  · intro t ht
    apply h.tree ht .root
    intro hev
    obtain ⟨s, outer, hcallers, -⟩ := h.direct ht .root hev
    cases hcallers

end Recorders

end ProgrammableSolana.Solana
