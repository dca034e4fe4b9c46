import Mathlib.Data.List.Basic

/-! Trees of calls: who called whom, where a capability that is only passed down or created comes
from, and what a whole tree does to a state its calls change one after the other. -/
namespace ProgrammableSolana.Lib

/-- A call that completed and the calls it made, in order. -/
inductive CallTree (α : Type) where
  | call (frame : α) (calls : List (CallTree α))

namespace CallTree

variable {α β σ : Type}

def frame : CallTree α → α
  | call a _ => a

def calls : CallTree α → List (CallTree α)
  | call _ cs => cs

/-- What holds of a call once it holds of the calls it made holds of every call. -/
theorem induct {P : CallTree α → Prop} (h : ∀ t, (∀ c ∈ t.calls, P c) → P t) (t : CallTree α) :
    P t := by
  apply h
  intro c hc
  have hsize : sizeOf c < sizeOf t := by
    cases t with
    | call a cs =>
      have hmem := List.sizeOf_lt_of_mem hc
      simp only [calls, call.sizeOf_spec] at hmem ⊢
      omega
  exact induct h c
termination_by sizeOf t

/-- A call of the tree, with the frames of its callers, the innermost first. -/
inductive Under (root : CallTree α) : List α → CallTree α → Prop
  | root : Under root [] root
  | call {callers : List α} {t c : CallTree α} (ht : Under root callers t) (hc : c ∈ t.calls) :
      Under root (t.frame :: callers) c

/-- Where the calls of the root call nobody, there is nothing further down. -/
theorem Under.flat {root t : CallTree α} {callers : List α} (h : Under root callers t)
    (hflat : ∀ c ∈ root.calls, c.calls = []) :
    callers = [] ∧ t = root ∨ callers = [root.frame] ∧ t ∈ root.calls := by
  induction h with
  | root => exact .inl ⟨rfl, rfl⟩
  | @call callers t c ht hc ih =>
    rcases ih with ⟨rfl, rfl⟩ | ⟨-, hmem⟩
    · exact .inr ⟨rfl, hc⟩
    · rw [hflat t hmem] at hc
      cases hc

/-- A capability the root does not hold, and that a call gets only from a caller that holds or
creates it: whoever holds it got it on an unbroken line from a call whose caller created it. -/
theorem created_of_held {root t : CallTree α} {callers : List α} (holds creates : α → Prop)
    (hroot : ¬ holds root.frame)
    (hpass : ∀ callers t, Under root callers t → ∀ c ∈ t.calls, holds c.frame →
      holds t.frame ∨ creates t.frame)
    (h : Under root callers t) (hheld : holds t.frame) :
    ∃ outer s c, Under root outer s ∧ c ∈ s.calls ∧ creates s.frame ∧ holds c.frame ∧
      (t = c ∧ callers = s.frame :: outer ∨ c.frame :: s.frame :: outer <:+ callers) := by
  induction h with
  | root => exact absurd hheld hroot
  | @call callers t c ht hc ih =>
    rcases hpass callers t ht c hc hheld with hpassed | hcreated
    · obtain ⟨outer, s, d, hs, hd, hcreates, hholds, hline⟩ := ih hpassed
      refine ⟨outer, s, d, hs, hd, hcreates, hholds, .inr ?_⟩
      rcases hline with ⟨rfl, rfl⟩ | hsuffix
      · exact List.suffix_refl _
      · exact hsuffix.trans (List.suffix_cons _ _)
    · exact ⟨callers, t, c, ht, hc, hcreated, hheld, .inl ⟨rfl, rfl⟩⟩

section Reentry

variable {ι : Type} (root : CallTree α) (program : α → ι)

/-- A program on the line of callers is called again only by itself. -/
def NoReentry : Prop :=
  ∀ callers t, Under root callers t → ∀ c ∈ t.calls,
    program c.frame ∈ (t.frame :: callers).map program → program c.frame = program t.frame

/-- A program that does not call itself. -/
def NeverSelf (p : ι) : Prop :=
  ∀ callers t, Under root callers t → program t.frame = p → ∀ c ∈ t.calls, program c.frame ≠ p

variable {root program}

/-- A program that does not call itself runs once on any line of calls. -/
theorem not_again {t : CallTree α} {callers : List α} {p : ι} (hrule : NoReentry root program)
    (hself : NeverSelf root program p) (h : Under root callers t) (hp : p ∈ callers.map program) :
    program t.frame ≠ p := by
  intro hagain
  cases h with
  | root => cases hp
  | @call outer s _ hs hc =>
    rw [← hagain] at hp
    have hsame := hrule outer s hs t hc hp
    exact hself outer s hs (hsame.symm.trans hagain) t hc hagain

end Reentry

mutual

/-- What the calls of a tree leave behind, in the order in which they complete. -/
def collect (f : α → List β) : CallTree α → List β
  | call a cs => collectAll f cs ++ f a

def collectAll (f : α → List β) : List (CallTree α) → List β
  | [] => []
  | c :: cs => collect f c ++ collectAll f cs

end

theorem collect_eq (f : α → List β) (t : CallTree α) :
    t.collect f = collectAll f t.calls ++ f t.frame := by
  cases t with
  | call a cs => rw [collect, calls, frame]

theorem collectAll_eq_nil {f : α → List β} {cs : List (CallTree α)}
    (h : ∀ c ∈ cs, c.collect f = []) : collectAll f cs = [] := by
  induction cs with
  | nil => rw [collectAll]
  | cons c cs ih =>
    rw [collectAll, h c (by simp), ih fun d hd => h d (by simp [hd])]
    rfl

/-- Below a call of a program nothing is left behind that only this program leaves. -/
theorem collect_eq_nil_of_called {ι : Type} {root t : CallTree α} {callers : List α}
    {program : α → ι} {p : ι} {f : α → List β} (hrule : NoReentry root program)
    (hself : NeverSelf root program p) (hf : ∀ a, program a ≠ p → f a = [])
    (h : Under root callers t) (hp : p ∈ callers.map program) : t.collect f = [] := by
  induction t using induct generalizing callers with
  | h t ih =>
    have hcalls : collectAll f t.calls = [] := by
      apply collectAll_eq_nil
      intro c hc
      apply ih c hc (.call h hc)
      exact List.mem_cons_of_mem _ hp
    rw [collect_eq, hcalls, hf _ (not_again hrule hself h hp)]
    rfl

/-- A state that changes in steps of a program's own and, between them, in its calls, each given by
the states around it. -/
inductive Interleaved (own : σ → σ → Prop) : σ → List (σ × σ) → σ → Prop
  | done {s s' : σ} (h : own s s') : Interleaved own s [] s'
  | call {s t u s' : σ} {calls : List (σ × σ)} (h : own s t)
      (hrest : Interleaved own u calls s') : Interleaved own s ((t, u) :: calls) s'

variable {own : σ → σ → Prop}

theorem Interleaved.nil_iff {s s' : σ} : Interleaved own s [] s' ↔ own s s' := by
  constructor
  · intro h
    cases h with
    | done h => exact h
  · exact .done

theorem Interleaved.cons_iff {s s' : σ} {span : σ × σ} {calls : List (σ × σ)} :
    Interleaved own s (span :: calls) s' ↔ own s span.1 ∧ Interleaved own span.2 calls s' := by
  constructor
  · intro h
    cases h with
    | call h hrest => exact ⟨h, hrest⟩
  · intro h
    exact .call h.1 h.2

/-- The step rule of trees: what relates the states around each call to what the call leaves
behind, is kept by a program's own steps and composes, relates the states around them all. -/
theorem Interleaved.relates {R : σ → List β → σ → Prop} {f : α → List β} {span : α → σ × σ}
    (hown : ∀ s t, own s t → R s [] t)
    (hcomp : ∀ s t u xs ys, R s xs t → R t ys u → R s (xs ++ ys) u)
    {cs : List (CallTree α)} (hcalls : ∀ c ∈ cs, R (span c.frame).1 (c.collect f) (span c.frame).2)
    {s s' : σ} (h : Interleaved own s (cs.map fun c => span c.frame) s') :
    R s (collectAll f cs) s' := by
  induction cs generalizing s with
  | nil => exact hown _ _ (Interleaved.nil_iff.mp h)
  | cons c cs ih =>
    rw [List.map_cons, Interleaved.cons_iff] at h
    have hcall := hcalls c (by simp)
    have hrest := ih (fun d hd => hcalls d (by simp [hd])) h.2
    have hstart := hcomp _ _ _ _ _ (hown _ _ h.1) hcall
    rw [collectAll]
    exact hcomp _ _ _ _ _ hstart hrest

end CallTree

end ProgrammableSolana.Lib
