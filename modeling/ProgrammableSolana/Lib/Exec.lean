import Mathlib.Algebra.BigOperators.Finprod
import Mathlib.Data.List.Forall2

/-! Fallible stateful computations and the rules that read a success back into its parts. -/
namespace ProgrammableSolana.Lib

/-- A computation that may fail. The state reached at a failure is kept, so that
what happened before it stays visible; undoing it is left to the caller. -/
def Exec (σ ε α : Type) : Type := σ → Except ε α × σ

namespace Exec

variable {σ ε α β γ : Type}

def run (x : Exec σ ε α) (s : σ) : Except ε α × σ := x s

def ofExcept (x : Except ε α) : Exec σ ε α := fun s => (x, s)

def get : Exec σ ε σ := fun s => (.ok s, s)

def modify (f : σ → σ) : Exec σ ε Unit := fun s => (.ok (), f s)

def fail (e : ε) : Exec σ ε α := fun s => (.error e, s)

protected def bind (x : Exec σ ε α) (f : α → Exec σ ε β) : Exec σ ε β := fun s =>
  match x s with
  | (.ok a, s₁) => f a s₁
  | (.error e, s₁) => (.error e, s₁)

instance : Monad (Exec σ ε) where
  pure a := fun s => (.ok a, s)
  bind := Exec.bind

/-- The same computation under another error type. -/
def mapError {ε' : Type} (f : ε → ε') (x : Exec σ ε α) : Exec σ ε' α := fun s =>
  ((x s).1.mapError f, (x s).2)

/-- The computation as a transaction: a failure forgets the state it reached. -/
def transact (x : Exec σ ε Unit) (s : σ) : Except ε σ :=
  match x.run s with
  | (.ok (), s') => .ok s'
  | (.error e, _) => .error e

theorem ext {x y : Exec σ ε α} (h : ∀ s, x.run s = y.run s) : x = y := funext h

@[simp] theorem run_pure (a : α) (s : σ) : (pure a : Exec σ ε α).run s = (.ok a, s) := rfl

@[simp] theorem run_ofExcept (x : Except ε α) (s : σ) : (ofExcept x : Exec σ ε α).run s = (x, s) := rfl

@[simp] theorem run_get (s : σ) : (get : Exec σ ε σ).run s = (.ok s, s) := rfl

@[simp] theorem run_modify (f : σ → σ) (s : σ) :
    (modify f : Exec σ ε Unit).run s = (.ok (), f s) := rfl

@[simp] theorem run_fail (e : ε) (s : σ) : (fail e : Exec σ ε α).run s = (.error e, s) := rfl

theorem run_bind (x : Exec σ ε α) (f : α → Exec σ ε β) (s : σ) :
    (x >>= f).run s = match x.run s with
      | (.ok a, s₁) => (f a).run s₁
      | (.error e, s₁) => (.error e, s₁) := rfl

theorem run_bind_of_ok {x : Exec σ ε α} {f : α → Exec σ ε β} {s s₁ : σ} {a : α}
    (h : x.run s = (.ok a, s₁)) : (x >>= f).run s = (f a).run s₁ := by
  rw [run_bind, h]

theorem run_bind_of_error {x : Exec σ ε α} {f : α → Exec σ ε β} {s s₁ : σ} {e : ε}
    (h : x.run s = (.error e, s₁)) : (x >>= f).run s = (.error e, s₁) := by
  rw [run_bind, h]

instance : LawfulMonad (Exec σ ε) := LawfulMonad.mk' _
  (by
    intro α x
    refine Exec.ext fun s => ?_
    change (x >>= fun a => pure (id a)).run s = x.run s
    rw [run_bind]
    rcases x.run s with ⟨a | a, s₁⟩ <;> rfl)
  (by intros; rfl)
  (by
    intro α β γ x f g
    refine Exec.ext fun s => ?_
    simp only [run_bind]
    rcases x.run s with ⟨a | a, s₁⟩ <;> rfl)

/-- A sequence succeeds exactly when both parts do, one after the other. -/
theorem bind_ok_iff {x : Exec σ ε α} {f : α → Exec σ ε β} {s s' : σ} {b : β} :
    (x >>= f).run s = (.ok b, s') ↔
      ∃ a s₁, x.run s = (.ok a, s₁) ∧ (f a).run s₁ = (.ok b, s') := by
  rw [run_bind]
  rcases x.run s with ⟨e | a, s₁⟩
  · simp
  · simp

theorem pure_ok_iff {a b : α} {s s' : σ} :
    (pure a : Exec σ ε α).run s = (.ok b, s') ↔ a = b ∧ s = s' := by simp

theorem ofExcept_ok_iff {x : Except ε α} {a : α} {s s' : σ} :
    (ofExcept x : Exec σ ε α).run s = (.ok a, s') ↔ x = .ok a ∧ s = s' := by simp

theorem get_ok_iff {s t s' : σ} :
    (get : Exec σ ε σ).run s = (.ok t, s') ↔ s = t ∧ s = s' := by simp

theorem modify_ok_iff {f : σ → σ} {u : Unit} {s s' : σ} :
    (modify f : Exec σ ε Unit).run s = (.ok u, s') ↔ f s = s' := by simp

theorem transact_ok_iff {x : Exec σ ε Unit} {s s' : σ} :
    x.transact s = .ok s' ↔ x.run s = (.ok (), s') := by
  unfold transact
  rcases x.run s with ⟨e | u, t⟩ <;> simp

theorem run_of_fst {x : Exec σ ε α} {s : σ} {a : α} (h : (x.run s).1 = .ok a) :
    x.run s = (.ok a, (x.run s).2) :=
  Prod.ext h rfl

/-- The state a run ends in. -/
def final (x : Exec σ ε α) (s : σ) : σ := (x.run s).2

theorem run_final {x : Exec σ ε α} {s : σ} {a : α} (h : (x.run s).1 = .ok a) :
    x.run s = (.ok a, x.final s) := run_of_fst h

theorem transact_of_ok {x : Exec σ ε Unit} {s : σ} (h : (x.run s).1 = .ok ()) :
    x.transact s = .ok (x.run s).2 :=
  transact_ok_iff.mpr (run_of_fst h)

theorem mapError_run_ok_iff {ε' : Type} {f : ε → ε'} {x : Exec σ ε α} {a : α} {s s' : σ} :
    (x.mapError f).run s = (.ok a, s') ↔ x.run s = (.ok a, s') := by
  unfold mapError run
  rcases hx : x s with ⟨e | b, t⟩ <;> simp [hx, Except.mapError]

theorem mapError_run {ε' : Type} (f : ε → ε') (x : Exec σ ε α) (s : σ) :
    (x.mapError f).run s = ((x.run s).1.mapError f, (x.run s).2) := rfl

theorem mapError_mapError {ε' ε'' : Type} (f : ε → ε') (g : ε' → ε'') (x : Exec σ ε α) :
    (x.mapError f).mapError g = x.mapError fun e => g (f e) := by
  refine Exec.ext fun s => ?_
  rw [mapError_run, mapError_run, mapError_run]
  rcases x.run s with ⟨e | a, s₁⟩ <;> rfl

theorem mapError_run_of_error {ε' : Type} {f : ε → ε'} {x : Exec σ ε α} {e : ε} {s s' : σ}
    (h : x.run s = (.error e, s')) : (x.mapError f).run s = (.error (f e), s') := by
  have hmap : (x.mapError f).run s = ((x.run s).1.mapError f, (x.run s).2) := rfl
  rw [hmap, h]
  rfl

/-- Every successful run relates the states around it. -/
def Carries (R : σ → σ → Prop) (x : Exec σ ε α) : Prop :=
  ∀ s a s', x.run s = (.ok a, s') → R s s'

section Carries

variable {R : σ → σ → Prop}

theorem carries_pure (hrefl : ∀ s, R s s) (a : α) : (pure a : Exec σ ε α).Carries R := by
  intro s b s' h
  obtain ⟨-, rfl⟩ := Prod.mk.inj h
  exact hrefl s

theorem carries_ofExcept (hrefl : ∀ s, R s s) (y : Except ε α) : (ofExcept y).Carries R := by
  intro s a s' h
  obtain ⟨-, rfl⟩ := Prod.mk.inj h
  exact hrefl s

theorem carries_modify {f : σ → σ} (h : ∀ s, R s (f s)) : (modify f : Exec σ ε Unit).Carries R := by
  intro s a s' hrun
  obtain ⟨-, rfl⟩ := Prod.mk.inj hrun
  exact h s

/-- The relation rule: what both parts of a sequence carry and composes, the sequence carries. -/
theorem Carries.bind (htrans : ∀ {a b c}, R a b → R b c → R a c) {x : Exec σ ε α}
    {f : α → Exec σ ε β} (hx : x.Carries R) (hf : ∀ a, (f a).Carries R) : (x >>= f).Carries R := by
  intro s b s' h
  rw [run_bind] at h
  rcases hr : x.run s with ⟨e | a, s₁⟩
  · rw [hr] at h
    cases h
  · rw [hr] at h
    exact htrans (hx s a s₁ hr) (hf a s₁ b s' h)

theorem carries_get_bind {f : σ → Exec σ ε β} (hf : ∀ a, (f a).Carries R) :
    (get >>= f).Carries R := by
  intro s b s' h
  exact hf s s b s' h

theorem carries_ofExcept_bind {y : Except ε α} {f : α → Exec σ ε β} (hf : ∀ a, (f a).Carries R) :
    (ofExcept y >>= f).Carries R := by
  intro s b s' h
  cases y with
  | error e => cases h
  | ok a => exact hf a s b s' h

theorem Carries.mapError {ε' : Type} {x : Exec σ ε α} (hx : x.Carries R) (g : ε → ε') :
    (x.mapError g).Carries R := by
  intro s a s' h
  exact hx s a s' (mapError_run_ok_iff.mp h)

end Carries

/-- How a computation ends: `E` holds of a failure, `Q` of a success. -/
def Ends (x : Exec σ ε α) (s : σ) (E : ε → σ → Prop) (Q : α → σ → Prop) : Prop :=
  match x.run s with
  | (.ok a, s') => Q a s'
  | (.error e, s') => E e s'

section Ends

variable {x : Exec σ ε α} {f : α → Exec σ ε β} {s s' : σ} {a : α} {E : ε → σ → Prop}

theorem ends_bind_iff {Q : β → σ → Prop} :
    (x >>= f).Ends s E Q ↔ x.Ends s E fun a s₁ => (f a).Ends s₁ E Q := by
  unfold Ends
  rw [run_bind]
  rcases x.run s with ⟨e | a, s₁⟩ <;> rfl

theorem ends_of_ok {Q : α → σ → Prop} (h : x.run s = (.ok a, s')) (hQ : Q a s') :
    x.Ends s E Q := by
  unfold Ends
  rw [h]
  exact hQ

theorem Ends.mono {E' : ε → σ → Prop} {Q Q' : α → σ → Prop} (h : x.Ends s E Q)
    (hE : ∀ e s₁, E e s₁ → E' e s₁) (hQ : ∀ a s₁, Q a s₁ → Q' a s₁) : x.Ends s E' Q' := by
  unfold Ends at h ⊢
  rcases hr : x.run s with ⟨e | a, s₁⟩ <;> rw [hr] at h
  · exact hE e s₁ h
  · exact hQ a s₁ h

/-- An end, with the run that leads to it. -/
theorem Ends.with_run {Q : α → σ → Prop} (h : x.Ends s E Q) :
    x.Ends s E fun a s₁ => Q a s₁ ∧ x.run s = (.ok a, s₁) := by
  unfold Ends at h ⊢
  rcases hr : x.run s with ⟨e | a, s₁⟩ <;> rw [hr] at h
  · exact h
  · exact ⟨h, rfl⟩

theorem Ends.of_ok {Q : α → σ → Prop} (h : x.Ends s E Q) (hx : x.run s = (.ok a, s')) : Q a s' := by
  unfold Ends at h
  rwa [hx] at h

theorem Ends.of_error {Q : α → σ → Prop} {e : ε} (h : x.Ends s E Q)
    (hx : x.run s = (.error e, s')) : E e s' := by
  unfold Ends at h
  rwa [hx] at h

theorem Ends.bind {P : α → σ → Prop} {Q : β → σ → Prop} (h : x.Ends s E P)
    (hf : ∀ a s₁, P a s₁ → (f a).Ends s₁ E Q) : (x >>= f).Ends s E Q :=
  ends_bind_iff.mpr (h.mono (fun _ _ he => he) hf)

/-- A sequence ends as its first part fails, or as the second part ends after it. -/
theorem ends_bind_of {Q : β → σ → Prop} (hx : ∀ e s₁, x.run s = (.error e, s₁) → E e s₁)
    (hf : ∀ a s₁, x.run s = (.ok a, s₁) → (f a).Ends s₁ E Q) : (x >>= f).Ends s E Q := by
  rw [ends_bind_iff]
  unfold Ends
  rcases hr : x.run s with ⟨e | a, s₁⟩
  · exact hx e s₁ hr
  · exact hf a s₁ hr

theorem ends_ofExcept_bind_of {y : Except ε α} {Q : β → σ → Prop} (hy : ∀ e, y = .error e → E e s)
    (hf : ∀ a, y = .ok a → (f a).Ends s E Q) : (ofExcept y >>= f).Ends s E Q := by
  refine ends_bind_of (fun e s₁ h => ?_) fun a s₁ h => ?_
  · obtain ⟨rfl, rfl⟩ := Prod.mk.inj h
    exact hy e rfl
  · obtain ⟨hok, rfl⟩ := ofExcept_ok_iff.mp h
    exact hf a hok

theorem ends_ofExcept_of {y : Except ε α} {Q : α → σ → Prop} (hy : ∀ e, y = .error e → E e s)
    (hQ : ∀ a, y = .ok a → Q a s) : (ofExcept y).Ends s E Q := by
  unfold Ends
  rw [run_ofExcept]
  rcases y with e | a
  · exact hy e rfl
  · exact hQ a rfl

theorem ends_mapError_iff {ε' : Type} {g : ε' → ε} {y : Exec σ ε' α} {Q : α → σ → Prop} :
    (y.mapError g).Ends s E Q ↔ y.Ends s (fun e s₁ => E (g e) s₁) Q := by
  unfold Ends mapError run
  rcases hy : y s with ⟨e | a, s₁⟩ <;> simp [hy, Except.mapError]

theorem ends_mapError_bind_of {ε' : Type} {g : ε' → ε} {y : Exec σ ε' α} {Q : β → σ → Prop}
    (hy : ∀ e s₁, y.run s = (.error e, s₁) → E (g e) s₁)
    (hf : ∀ a s₁, y.run s = (.ok a, s₁) → (f a).Ends s₁ E Q) : (y.mapError g >>= f).Ends s E Q := by
  rw [ends_bind_iff, ends_mapError_iff]
  unfold Ends
  rcases hr : y.run s with ⟨e | a, s₁⟩
  · exact hy e s₁ hr
  · exact hf a s₁ hr

theorem ends_ofExcept_bind {y : Except ε α} {Q : β → σ → Prop} (h : y = .ok a)
    (hf : (f a).Ends s E Q) : (ofExcept y >>= f).Ends s E Q := by
  rw [h]
  exact ends_bind_iff.mpr hf

theorem ends_get_bind {f : σ → Exec σ ε β} {Q : β → σ → Prop} (hf : (f s).Ends s E Q) :
    (get >>= f).Ends s E Q :=
  ends_bind_iff.mpr hf

end Ends

/-- However it ends, a computation relates the states around it. -/
def Leaves (R : σ → σ → Prop) (x : Exec σ ε α) : Prop := ∀ s, R s (x.run s).2

section Leaves

variable {R : σ → σ → Prop} {x : Exec σ ε α} {f : α → Exec σ ε β}

theorem leaves_pure (hrefl : ∀ s, R s s) (a : α) : (pure a : Exec σ ε α).Leaves R := fun s => hrefl s

theorem leaves_modify {g : σ → σ} (h : ∀ s, R s (g s)) : (modify g : Exec σ ε Unit).Leaves R :=
  fun s => h s

/-- The relation rule for any end: a sequence leaves what its parts leave, one after the other. -/
theorem Leaves.bind (htrans : ∀ {a b c}, R a b → R b c → R a c) (hx : x.Leaves R)
    (hf : ∀ a, (f a).Leaves R) : (x >>= f).Leaves R := by
  intro s
  have hfirst := hx s
  rw [run_bind]
  rcases hr : x.run s with ⟨e | a, s₁⟩
  · rw [hr] at hfirst
    exact hfirst
  · rw [hr] at hfirst
    exact htrans hfirst (hf a s₁)

theorem leaves_get_bind {f : σ → Exec σ ε β} (hf : ∀ a, (f a).Leaves R) : (get >>= f).Leaves R :=
  fun s => hf s s

theorem leaves_ofExcept_bind (hrefl : ∀ s, R s s) {y : Except ε α} (hf : ∀ a, (f a).Leaves R) :
    (ofExcept y >>= f).Leaves R := by
  intro s
  cases y with
  | error e => exact hrefl s
  | ok a => exact hf a s

theorem Leaves.mapError {ε' : Type} (hx : x.Leaves R) (g : ε → ε') : (x.mapError g).Leaves R :=
  fun s => hx s

theorem Leaves.of_error (h : x.Leaves R) {s s' : σ} {e : ε} (hx : x.run s = (.error e, s')) :
    R s s' := by
  have hend := h s
  rwa [hx] at hend

theorem Leaves.ends (h : x.Leaves R) (s : σ) :
    x.Ends s (fun _ s' => R s s') (fun _ s' => R s s') := by
  have hend := h s
  unfold Ends
  rcases hr : x.run s with ⟨e | a, s'⟩
  · rw [hr] at hend
    exact hend
  · rw [hr] at hend
    exact hend

end Leaves

end Exec

section Except

variable {ε ε' α β : Type}

/-- The `require!` of the sources: carry on when the condition holds. -/
def require (p : Prop) [Decidable p] (e : ε) : Except ε Unit := if p then .ok () else .error e

def okOr (x : Option α) (e : ε) : Except ε α :=
  match x with
  | some a => .ok a
  | none => .error e

@[simp] theorem require_ok_iff {p : Prop} [Decidable p] {e : ε} {u : Unit} :
    require p e = .ok u ↔ p := by
  by_cases h : p <;> simp [require, h]

@[simp] theorem okOr_ok_iff {x : Option α} {e : ε} {a : α} : okOr x e = .ok a ↔ x = some a := by
  cases x <;> simp [okOr]

theorem require_of {p : Prop} [Decidable p] {e : ε} (h : p) : require p e = .ok () := if_pos h

theorem require_of_not {p : Prop} [Decidable p] {e : ε} (h : ¬ p) : require p e = .error e :=
  if_neg h

theorem require_congr {p q : Prop} [Decidable p] [Decidable q] {e : ε} (h : p ↔ q) :
    require p e = require q e := by
  by_cases hq : q
  · rw [require_of hq, require_of (h.mpr hq)]
  · rw [require_of_not hq, require_of_not (mt h.mp hq)]

/-- What follows a check may assume it. -/
theorem require_bind_congr {p : Prop} [Decidable p] {e : ε} {k k' : Unit → Except ε β}
    (h : p → k () = k' ()) : (require p e >>= k) = (require p e >>= k') := by
  by_cases hp : p
  · rw [require_of hp]
    exact h hp
  · rw [require_of_not hp]
    rfl

theorem okOr_some (a : α) (e : ε) : okOr (some a) e = .ok a := rfl

theorem except_ok_bind (a : α) (f : α → Except ε β) : (Except.ok a >>= f) = f a := rfl

theorem except_error_bind (e : ε) (f : α → Except ε β) :
    ((Except.error e : Except ε α) >>= f) = .error e := rfl

theorem except_bind_ok_iff {x : Except ε α} {f : α → Except ε β} {b : β} :
    (x >>= f) = .ok b ↔ ∃ a, x = .ok a ∧ f a = .ok b := by
  cases x with
  | error e => simp [bind, Except.bind]
  | ok a => simp [bind, Except.bind]

theorem except_pure_ok_iff {a b : α} : (pure a : Except ε α) = .ok b ↔ a = b := by
  simp [pure, Except.pure]

/-- A loop over a list succeeds exactly when its body does at every position. -/
theorem except_mapM_ok_iff {f : α → Except ε β} {xs : List α} {ys : List β} :
    xs.mapM f = .ok ys ↔ List.Forall₂ (fun x y => f x = .ok y) xs ys := by
  induction xs generalizing ys with
  | nil =>
    rw [List.mapM_nil, except_pure_ok_iff, List.forall₂_nil_left_iff, eq_comm]
  | cons x xs ih =>
    simp only [List.mapM_cons, except_bind_ok_iff, except_pure_ok_iff, ih,
      List.forall₂_cons_left_iff]
    constructor
    · rintro ⟨y, hy, ys', hys, rfl⟩
      exact ⟨y, ys', hy, hys, rfl⟩
    · rintro ⟨y, ys', hy, hys, rfl⟩
      exact ⟨y, hy, ys', hys, rfl⟩

/-- Loops whose bodies agree position by position agree. -/
theorem except_mapM_congr {γ : Type} {f : α → Except ε γ} {g : β → Except ε γ} {xs : List α}
    {ys : List β} (h : List.Forall₂ (fun x y => f x = g y) xs ys) : xs.mapM f = ys.mapM g := by
  induction h with
  | nil => rfl
  | cons hxy _ ih => rw [List.mapM_cons, List.mapM_cons, hxy, ih]

theorem exists_of_forall₂_mem {R : α → β → Prop} {xs : List α} {ys : List β}
    (h : List.Forall₂ R xs ys) {y : β} (hy : y ∈ ys) : ∃ x ∈ xs, R x y := by
  induction h with
  | nil => cases hy
  | @cons x y' xs ys hxy _ ih =>
    rcases List.mem_cons.mp hy with rfl | hy
    · exact ⟨x, by simp, hxy⟩
    · obtain ⟨x', hx', hR⟩ := ih hy
      exact ⟨x', by simp [hx'], hR⟩

/-- A loop whose body succeeds at every position succeeds. -/
theorem except_mapM_succeeds {f : α → Except ε β} {R : α → β → Prop} {xs : List α}
    (h : ∀ x ∈ xs, ∃ y, f x = .ok y ∧ R x y) :
    ∃ ys, xs.mapM f = .ok ys ∧ List.Forall₂ R xs ys := by
  induction xs with
  | nil => exact ⟨[], rfl, .nil⟩
  | cons x xs ih =>
    obtain ⟨y, hy, hR⟩ := h x (by simp)
    obtain ⟨ys, hys, hRs⟩ := ih fun x' hx' => h x' (by simp [hx'])
    have hys' := except_mapM_ok_iff.mp hys
    exact ⟨y :: ys, except_mapM_ok_iff.mpr (.cons hy hys'), .cons hR hRs⟩

@[simp] theorem mapError_ok_iff {f : ε → ε'} {x : Except ε α} {a : α} :
    x.mapError f = .ok a ↔ x = .ok a := by
  cases x <;> simp [Except.mapError]

theorem toOption_eq_some_iff {x : Except ε α} {a : α} : x.toOption = some a ↔ x = .ok a := by
  cases x <;> simp [Except.toOption]

section Failures

@[simp] theorem require_error_iff {p : Prop} [Decidable p] {e e' : ε} :
    require p e = .error e' ↔ ¬ p ∧ e = e' := by
  by_cases h : p <;> simp [require, h]

@[simp] theorem okOr_error_iff {x : Option α} {e e' : ε} :
    okOr x e = .error e' ↔ x = none ∧ e = e' := by
  cases x <;> simp [okOr]

@[simp] theorem mapError_error_iff {f : ε → ε'} {x : Except ε α} {e' : ε'} :
    x.mapError f = .error e' ↔ ∃ e, x = .error e ∧ f e = e' := by
  cases x <;> simp [Except.mapError]

theorem except_bind_error_iff {x : Except ε α} {f : α → Except ε β} {e : ε} :
    (x >>= f) = .error e ↔ x = .error e ∨ ∃ a, x = .ok a ∧ f a = .error e := by
  cases x with
  | error e' => simp [bind, Except.bind]
  | ok a => simp [bind, Except.bind]

/-- A failure behind a part that succeeds comes from the rest. -/
theorem except_error_past {x : Except ε α} {a : α} {e : ε} {P : α → Prop} (hx : x = .ok a)
    (h : x = .error e ∨ ∃ a', x = .ok a' ∧ P a') : P a := by
  rcases h with h | ⟨a', h, hP⟩
  · rw [hx] at h
    cases h
  · rw [hx, Except.ok.injEq] at h
    rwa [h]

theorem except_pure_ne_error {a : α} {e : ε} : (pure a : Except ε α) ≠ .error e := by
  simp [pure, Except.pure]

/-- A loop that fails fails in its body. -/
theorem except_mapM_error {f : α → Except ε β} {xs : List α} {e : ε} (h : xs.mapM f = .error e) :
    ∃ x ∈ xs, f x = .error e := by
  induction xs with
  | nil => exact absurd h (by rw [List.mapM_nil]; exact except_pure_ne_error)
  | cons x xs ih =>
    simp only [List.mapM_cons, except_bind_error_iff] at h
    rcases h with h | ⟨y, -, h | ⟨ys, -, h⟩⟩
    · exact ⟨x, by simp, h⟩
    · obtain ⟨x', hx', h'⟩ := ih h
      exact ⟨x', by simp [hx'], h'⟩
    · exact absurd h except_pure_ne_error

end Failures

end Except

namespace Exec

variable {σ ε : Type}

/-- `require` inside a stateful computation. -/
def ensure (p : Prop) [Decidable p] (e : ε) : Exec σ ε Unit := ofExcept (require p e)

theorem run_ensure {p : Prop} [Decidable p] {e : ε} {s : σ} (h : p) :
    (ensure p e : Exec σ ε Unit).run s = (.ok (), s) := by
  unfold ensure
  rw [run_ofExcept, require_of h]

theorem ensure_ok_iff {p : Prop} [Decidable p] {e : ε} {u : Unit} {s s' : σ} :
    (ensure p e).run s = (.ok u, s') ↔ p ∧ s = s' := by
  simp [ensure]

end Exec

end ProgrammableSolana.Lib
