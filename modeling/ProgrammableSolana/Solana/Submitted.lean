import ProgrammableSolana.Solana.CallTree

/-! A submission of a program and the calls it logged as a tree of invocations. -/
namespace ProgrammableSolana.Solana

open ProgrammableSolana.Lib

variable {σ ev : Type}

/-- A submission that ended in a world, with its calls as ones that made none themselves. -/
def submitted (ix : Instruction) (L : Ledger σ) (w' : World σ ev) : Invocation σ ev :=
  .call ⟨ix, L, w'.ledger, w'.returnData, emittedEvents w'.log⟩
    ((engineCalls w'.log).map (EngineCall.leaf ev))

section Shape

variable {ix : Instruction} {L : Ledger σ} {w' : World σ ev}

theorem mem_submitted {c : EngineCall σ} (h : c ∈ engineCalls w'.log) :
    c.leaf ev ∈ (submitted ix L w').calls :=
  List.mem_map_of_mem h

theorem submitted_calls : (submitted ix L w').calls.map (fun c => c.frame.call) =
    engineCalls w'.log := by
  unfold submitted
  rw [CallTree.calls, List.map_map]
  exact List.map_id _

/-- The submission itself and its calls are all there is. -/
theorem submitted_cases {callers : List (Frame σ ev)} {t : Invocation σ ev}
    (ht : (submitted ix L w').Under callers t) :
    callers = [] ∧ t = submitted ix L w' ∨
      ∃ c ∈ engineCalls w'.log, t = c.leaf ev ∧ callers = [(submitted ix L w').frame] := by
  have hmem : ∀ c ∈ (submitted ix L w').calls, ∃ c' ∈ engineCalls w'.log, c = c'.leaf ev := by
    intro c hc
    obtain ⟨c', hc', rfl⟩ := List.mem_map.mp hc
    exact ⟨c', hc', rfl⟩
  have hflat : ∀ c ∈ (submitted ix L w').calls, c.calls = [] := by
    intro c hc
    obtain ⟨c', -, rfl⟩ := hmem c hc
    rfl
  rcases ht.flat hflat with hroot | ⟨hcallers, hcall⟩
  · exact .inl hroot
  · obtain ⟨c, hc, hleaf⟩ := hmem t hcall
    exact .inr ⟨c, hc, hleaf, hcallers⟩

end Shape

variable [Crypto]

/-- A submission of which all this holds is a lawful tree: its calls are signed for by addresses of the
program only, and they as the program itself keep to what the runtime lets them do and do what is known
of them. -/
structure Submitted (derived : Set Derivation)
    (behaves : List (Frame σ ev) → Invocation σ ev → Prop)
    (ix : Instruction) (L : Ledger σ) (w' : World σ ev) : Prop where
  signers : ∀ m ∈ ix.accounts, m.isSigner = true → Crypto.onCurve m.pubkey = true
  granted : ∀ c ∈ engineCalls w'.log, ∀ key, (c.leaf ev).frame.Signed key →
    (submitted ix L w').frame.Signed key ∨
      ∃ d ∈ derived, d.programId = ix.programId ∧ d.address = some key
  sandboxed : ∀ c ∈ engineCalls w'.log, Sandboxed (c.leaf ev)
  ledgers : CallTree.Interleaved (OwnStep ix.programId) L
    ((engineCalls w'.log).map fun c => (c.before, c.after)) w'.ledger
  returned : ∀ p data, w'.returnData = some (p, data) →
    ∃ c ∈ engineCalls w'.log, c.returned = some (p, data)
  known : behaves [] (submitted ix L w')
  answers : ∀ c ∈ engineCalls w'.log, behaves [(submitted ix L w').frame] (c.leaf ev)

theorem Submitted.lawful {derived : Set Derivation}
    {behaves : List (Frame σ ev) → Invocation σ ev → Prop} {ix : Instruction}
    {L : Ledger σ} {w' : World σ ev} (h : Submitted derived behaves ix L w') :
    Lawful derived behaves (submitted ix L w') := by
  constructor
  · intro key hkey
    obtain ⟨m, hm, rfl, hsigner⟩ := hkey
    exact h.signers m hm hsigner
  · intro callers t ht c hc key hkey
    rcases submitted_cases (.call ht hc) with ⟨hnil, -⟩ | ⟨c', hc', rfl, hcallers⟩
    · cases hnil
    · obtain ⟨hframe, -⟩ := List.cons_eq_cons.mp hcallers
      rcases submitted_cases ht with ⟨-, rfl⟩ | ⟨c'', -, rfl, -⟩
      · exact h.granted c' hc' key hkey
      · cases hc
  · intro callers t ht c hc hagain
    rcases submitted_cases ht with ⟨rfl, rfl⟩ | ⟨c', -, rfl, -⟩
    · rw [List.map_singleton, List.mem_singleton] at hagain
      exact hagain
    · cases hc
  · intro callers t ht
    rcases submitted_cases ht with ⟨rfl, rfl⟩ | ⟨c, hc, rfl, -⟩
    · constructor
      · unfold submitted
        rw [CallTree.calls, List.map_map]
        exact h.ledgers
      · intro p data hdata
        obtain ⟨c, hc, hreturned⟩ := h.returned p data hdata
        exact .inr (.inr ⟨c.leaf ev, mem_submitted hc, hreturned⟩)
    · exact h.sandboxed c hc
  · intro callers t ht
    rcases submitted_cases ht with ⟨rfl, rfl⟩ | ⟨c, hc, rfl, rfl⟩
    · exact h.known
    · exact h.answers c hc

/-- An instruction that calls nobody is a lawful tree where the program keeps to its own accounts. -/
theorem lawful_of_leaf {derived : Set Derivation}
    {behaves : List (Frame σ ev) → Invocation σ ev → Prop} {f : Frame σ ev}
    (hsigners : ∀ m ∈ f.instruction.accounts, m.isSigner = true → Crypto.onCurve m.pubkey = true)
    (hown : OwnStep f.programId f.before f.after)
    (hreturned : ∀ p data, f.returned = some (p, data) → p = f.programId)
    (hbehaves : behaves [] (.call f [])) : Lawful derived behaves (.call f []) := by
  have hroot : ∀ {callers t}, CallTree.Under (.call f []) callers t → callers = [] ∧ t = .call f [] := by
    intro callers t ht
    rcases ht.flat (fun c hc => by cases hc) with hroot | ⟨-, hcall⟩
    · exact hroot
    · cases hcall
  constructor
  · intro key hkey
    obtain ⟨m, hm, rfl, hsigner⟩ := hkey
    exact hsigners m hm hsigner
  · intro callers t ht c hc
    obtain ⟨-, rfl⟩ := hroot ht
    cases hc
  · intro callers t ht c hc
    obtain ⟨-, rfl⟩ := hroot ht
    cases hc
  · intro callers t ht
    obtain ⟨-, rfl⟩ := hroot ht
    constructor
    · exact .done hown
    · intro p data hdata
      exact .inl (hreturned p data hdata)
  · intro callers t ht
    obtain ⟨rfl, rfl⟩ := hroot ht
    exact hbehaves

theorem Ran.submitted {derived : Set Derivation}
    {behaves : List (Frame σ ev) → Invocation σ ev → Prop} {ix : Instruction}
    {L : Ledger σ} {w' : World σ ev} (h : Lawful derived behaves (submitted ix L w')) :
    Ran derived behaves L [submitted ix L w'] w'.ledger :=
  Ran.single h

end ProgrammableSolana.Solana
