import Mathlib.Algebra.BigOperators.Finprod

/-! An abstract custodian: books of what it owes and holds, moved only by flows. Holdings may
always grow on their own; what is owed changes by flows alone. -/
namespace ProgrammableSolana.Lib.Custody

/-- What one account of the custodian owes (`accounted`) and what it holds (`raw`). -/
structure Book where
  accountedA : ℕ
  accountedB : ℕ
  accountedFee : ℕ
  rawA : ℕ
  rawB : ℕ
  rawFee : ℕ

structure Book.Solvent (b : Book) : Prop where
  sideA : b.accountedA ≤ b.rawA
  sideB : b.accountedB ≤ b.rawB
  fee : b.accountedFee ≤ b.rawFee

/-- Amounts entering on side A and side B, leaving on side B, and taken as fee. -/
@[ext]
structure Flow where
  inA : ℕ
  inB : ℕ
  outB : ℕ
  fee : ℕ

namespace Flow

instance : Zero Flow := ⟨⟨0, 0, 0, 0⟩⟩

instance : Add Flow := ⟨fun f g => ⟨f.inA + g.inA, f.inB + g.inB, f.outB + g.outB, f.fee + g.fee⟩⟩

@[simp] theorem zero_inA : (0 : Flow).inA = 0 := rfl

@[simp] theorem zero_inB : (0 : Flow).inB = 0 := rfl

@[simp] theorem zero_outB : (0 : Flow).outB = 0 := rfl

@[simp] theorem zero_fee : (0 : Flow).fee = 0 := rfl

@[simp] theorem add_inA (f g : Flow) : (f + g).inA = f.inA + g.inA := rfl

@[simp] theorem add_inB (f g : Flow) : (f + g).inB = f.inB + g.inB := rfl

@[simp] theorem add_outB (f g : Flow) : (f + g).outB = f.outB + g.outB := rfl

@[simp] theorem add_fee (f g : Flow) : (f + g).fee = f.fee + g.fee := rfl

instance : AddCommMonoid Flow where
  add_assoc a b c := by ext <;> simp [Nat.add_assoc]
  zero_add a := by ext <;> simp
  add_zero a := by ext <;> simp
  add_comm a b := by ext <;> simp [Nat.add_comm]
  nsmul := nsmulRec

theorem sum_eq (fs : List Flow) : fs.sum =
    ⟨(fs.map inA).sum, (fs.map inB).sum, (fs.map outB).sum, (fs.map fee).sum⟩ := by
  induction fs with
  | nil => rfl
  | cons f fs ih =>
    rw [List.sum_cons, ih]
    ext <;> simp

end Flow

/-- The effect of a flow on a book: owed amounts move exactly, holdings at least as much. -/
structure Moves (b : Book) (f : Flow) (b' : Book) : Prop where
  accountedA : b'.accountedA = b.accountedA + f.inA
  accountedB : b'.accountedB + f.outB = b.accountedB + f.inB
  accountedFee : b'.accountedFee = b.accountedFee + f.fee
  rawA : b.rawA + f.inA ≤ b'.rawA
  rawB : b.rawB + f.inB ≤ b'.rawB + f.outB
  rawFee : b.rawFee + f.fee ≤ b'.rawFee

/-- The book owes exactly what a history of flows left with it. -/
structure Balanced (f : Flow) (b : Book) : Prop where
  accountedA : b.accountedA = f.inA
  accountedB : b.accountedB + f.outB = f.inB
  accountedFee : b.accountedFee = f.fee

theorem Moves.solvent {b b' : Book} {f : Flow} (h : Moves b f b') (hb : b.Solvent) : b'.Solvent where
  sideA := by
    have h₁ := h.accountedA
    have h₂ := h.rawA
    have h₃ := hb.sideA
    omega
  sideB := by
    have h₁ := h.accountedB
    have h₂ := h.rawB
    have h₃ := hb.sideB
    omega
  fee := by
    have h₁ := h.accountedFee
    have h₂ := h.rawFee
    have h₃ := hb.fee
    omega

theorem Moves.balanced {b b' : Book} {f g : Flow} (h : Moves b g b') (hb : Balanced f b) :
    Balanced (f + g) b' where
  accountedA := by rw [h.accountedA, hb.accountedA, Flow.add_inA]
  accountedB := by
    have h₁ := h.accountedB
    have h₂ := hb.accountedB
    rw [Flow.add_outB, Flow.add_inB]
    omega
  accountedFee := by rw [h.accountedFee, hb.accountedFee, Flow.add_fee]

section System

variable {ι : Type}

/-- One step of a custodian of many accounts: open accounts move by their flow, others may
open owing nothing. -/
structure Step (s : ι → Option Book) (flow : ι → Flow) (s' : ι → Option Book) : Prop where
  moved : ∀ k b, s k = some b → ∃ b', s' k = some b' ∧ Moves b (flow k) b'
  opened : ∀ k, s k = none → flow k = 0 ∧ ∀ b', s' k = some b' → b'.Solvent ∧ Balanced 0 b'

/-- Every open account is solvent and owes what the flows so far left with it; the flows of an
account that is not open are nil. -/
def Consistent (s : ι → Option Book) (total : ι → Flow) : Prop :=
  ∀ k, match s k with
    | some b => b.Solvent ∧ Balanced (total k) b
    | none => total k = 0

theorem Step.consistent {s s' : ι → Option Book} {flow total : ι → Flow} (h : Step s flow s')
    (hs : Consistent s total) : Consistent s' fun k => total k + flow k := by
  intro k
  have hk := hs k
  cases hb : s k with
  | some b =>
    rw [hb] at hk
    obtain ⟨b', hb', hmoves⟩ := h.moved k b hb
    rw [hb']
    exact ⟨hmoves.solvent hk.1, hmoves.balanced hk.2⟩
  | none =>
    rw [hb] at hk
    obtain ⟨hflow, hopen⟩ := h.opened k hb
    have hk : total k = 0 := hk
    cases hb' : s' k with
    | some b' => simpa [hk, hflow] using hopen b' hb'
    | none => simp [hk, hflow]

theorem consistent_empty : Consistent (fun _ : ι => none) (fun _ => 0) := fun _ => rfl

end System

end ProgrammableSolana.Lib.Custody
