import Mathlib.Data.List.Basic

/-! A state that changes step by step, where a step may take something up: what is taken up along the
way, and what every step keeps. -/
namespace ProgrammableSolana.Lib

/-- The steps from one state to another, with what they took up, in order. -/
inductive Journal {σ ε : Type} (step : σ → Option ε → σ → Prop) : σ → List ε → σ → Prop
  | refl (s : σ) : Journal step s [] s
  | snoc {s t u : σ} {es : List ε} {e : Option ε} (h : Journal step s es t) (hstep : step t e u) :
      Journal step s (es ++ e.toList) u

namespace Journal

variable {σ ε : Type} {step : σ → Option ε → σ → Prop} {s t u : σ} {es es' : List ε}

theorem single {e : Option ε} (h : step s e t) : Journal step s e.toList t := by
  have hsnoc := Journal.snoc (Journal.refl s) h
  rwa [List.nil_append] at hsnoc

theorem silent (h : step s none t) : Journal step s [] t := single h

theorem trans (h : Journal step s es t) (h' : Journal step t es' u) :
    Journal step s (es ++ es') u := by
  induction h' with
  | refl => rwa [List.append_nil]
  | snoc _ hstep ih =>
    rw [← List.append_assoc]
    exact .snoc ih hstep

/-- What holds at the start and is kept by every step holds at the end, of all that was taken up. -/
theorem invariant {P : List ε → σ → Prop} (h : Journal step s es t) (hstart : P [] s)
    (hstep : ∀ es s e t, P es s → step s e t → P (es ++ e.toList) t) : P es t := by
  induction h with
  | refl => exact hstart
  | snoc _ hlast ih => exact hstep _ _ _ _ ih hlast

end Journal

end ProgrammableSolana.Lib
