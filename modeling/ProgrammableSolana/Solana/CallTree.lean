import ProgrammableSolana.Lib.CallTree
import ProgrammableSolana.Solana.Programs

/-! The invocations of transactions as trees: what the runtime lets programs do of which nothing is
known, where a signature comes from, and what a run of transactions does to the ledger. -/
namespace ProgrammableSolana.Solana

open ProgrammableSolana.Lib

/-- An invocation that completed: the instruction, the ledgers around it, the return data it left
and the events it emitted itself. -/
structure Frame (σ ev : Type) where
  instruction : Instruction
  before : Ledger σ
  after : Ledger σ
  returned : Option (Pubkey × List UInt8)
  emitted : List ev

/-- An invocation with the invocations it made, other than those of the native programs. -/
abbrev Invocation (σ ev : Type) : Type := CallTree (Frame σ ev)

section Frames

variable {σ ev : Type}

namespace Frame

variable (f : Frame σ ev)

def programId : Pubkey := f.instruction.programId

def span : Ledger σ × Ledger σ := (f.before, f.after)

/-- The invocation as its caller logs it. -/
def call : EngineCall σ := ⟨f.instruction, f.before, f.after, f.returned⟩

/-- The key is a signer of the instruction. -/
def Signed (key : Pubkey) : Prop := ∃ m ∈ f.instruction.accounts, m.pubkey = key ∧ m.isSigner = true

variable {f}

theorem signed_of_presented {info : AccountInfo} (h : info ∈ f.instruction.presented)
    (hsigner : info.isSigner = true) : f.Signed info.key := by
  have hmem : info.key ∈ (f.instruction.privileges info.key).signers :=
    Instruction.mem_signers_of_presented h hsigner
  unfold Instruction.privileges at hmem
  obtain ⟨m, hm, hkey⟩ := List.mem_map.mp hmem
  obtain ⟨hmeta, hflag⟩ := List.mem_filter.mp hm
  exact ⟨m, hmeta, hkey, hflag⟩

end Frame

/-- A program whose work counts as done by its caller. -/
def IsNative (programId : Pubkey) : Prop := programId = tokenProgram ∨ programId = systemProgram

instance (programId : Pubkey) : Decidable (IsNative programId) := by
  unfold IsNative
  infer_instance

/-- The accounts of a program stay as they are, and those that come to it come without data. -/
structure Spared (programId : Pubkey) (L L' : Ledger σ) : Prop where
  kept : ∀ k, (L k).owner = programId → L' k = L k
  fresh : ∀ k, (L' k).owner = programId → L' k = L k ∨ (L' k).Blank

theorem Spared.refl {programId : Pubkey} (L : Ledger σ) : Spared programId L L :=
  ⟨fun _ _ => rfl, fun _ _ => .inl rfl⟩

theorem Spared.trans {programId : Pubkey} {L L' L'' : Ledger σ} (h : Spared programId L L')
    (h' : Spared programId L' L'') : Spared programId L L'' := by
  constructor
  · intro k hk
    have hfirst := h.kept k hk
    rw [h'.kept k (by rwa [hfirst]), hfirst]
  · intro k hk
    rcases h'.fresh k hk with hsame | hblank
    · rw [hsame] at hk ⊢
      exact h.fresh k hk
    · exact .inr hblank

/-- A program changes only accounts that it owns, or the native programs for it, and hands none over
with data in it. -/
def OwnStep (programId : Pubkey) (L L' : Ledger σ) : Prop :=
  ∀ p, p ≠ programId → ¬ IsNative p → Spared p L L'

theorem OwnStep.refl {programId : Pubkey} (L : Ledger σ) : OwnStep programId L L :=
  fun _ _ _ => .refl L

theorem OwnStep.trans {programId : Pubkey} (L L' L'' : Ledger σ) (h : OwnStep programId L L')
    (h' : OwnStep programId L' L'') : OwnStep programId L L'' :=
  fun p hp hnative => (h p hp hnative).trans (h' p hp hnative)

/-- Accounts that keep their owner, the program itself or a native one. -/
theorem OwnStep.of_owned {programId : Pubkey} {L L' : Ledger σ}
    (h : ∀ k, L' k = L k ∨ ((L' k).owner = (L k).owner ∧
      ((L k).owner = programId ∨ IsNative (L k).owner))) : OwnStep programId L L' := by
  intro p hp hnative
  have hforeign : ∀ k, (L k).owner = p → L' k = L k := by
    intro k hk
    rcases h k with hsame | ⟨-, howner | howner⟩
    · exact hsame
    · exact absurd (hk.symm.trans howner) hp
    · rw [hk] at howner
      exact absurd howner hnative
  constructor
  · exact hforeign
  · intro k hk
    left
    rcases h k with hsame | ⟨howner, -⟩
    · exact hsame
    · rw [howner] at hk
      exact hforeign k hk

/-- What the runtime sees to of any program. Return data comes from the program or from one it
called. -/
structure Sandboxed (t : Invocation σ ev) : Prop where
  ledgers : CallTree.Interleaved (OwnStep t.frame.programId) t.frame.before
    (t.calls.map fun c => c.frame.span) t.frame.after
  returned : ∀ p data, t.frame.returned = some (p, data) → p = t.frame.programId ∨ IsNative p ∨
    ∃ c ∈ t.calls, c.frame.returned = some (p, data)

/-- The step rule for invocations: what a program's own steps keep, relates the ledgers around each
call to what the call leaves behind and composes, relates the ledgers around the invocation. -/
theorem Sandboxed.relates {β : Type} {R : Ledger σ → List β → Ledger σ → Prop}
    {f : Frame σ ev → List β} {t : Invocation σ ev} (h : Sandboxed t)
    (hown : ∀ L L', OwnStep t.frame.programId L L' → R L [] L')
    (hcomp : ∀ L L' L'' xs ys, R L xs L' → R L' ys L'' → R L (xs ++ ys) L'')
    (hcalls : ∀ c ∈ t.calls, R c.frame.before (c.collect f) c.frame.after) :
    R t.frame.before (CallTree.collectAll f t.calls) t.frame.after := by
  apply CallTree.Interleaved.relates hown hcomp _ h.ledgers
  exact hcalls

end Frames

section Trees

variable [Crypto] {σ ev : Type}

/-- Seeds and the program an address is derived for with them. -/
structure Derivation where
  seeds : List (List UInt8)
  programId : Pubkey

namespace Derivation

/-- What is hashed for the address. -/
def message (d : Derivation) : List UInt8 := (d.seeds ++ [d.programId.toList, pdaMarker]).flatten

def address (d : Derivation) : Option Pubkey := createProgramAddress d.seeds d.programId

variable {d d' : Derivation} {key : Pubkey}

theorem isPda (h : d.address = some key) : IsPda d.programId key := isPda_of_create h

private theorem sha256_message (h : d.address = some key) : Crypto.sha256 d.message = key :=
  (createProgramAddress_eq_hashv h).symm

omit [Crypto] in
private theorem eq_of_message (h : d.message = d'.message) :
    d.seeds.flatten = d'.seeds.flatten ∧ d.programId = d'.programId := by
  unfold message at h
  simp only [List.flatten_append, List.flatten_cons, List.flatten_nil, List.append_nil] at h
  obtain ⟨hseeds, htail⟩ := List.append_inj' h (by simp)
  exact ⟨hseeds, Bytes.ext (List.append_cancel_right htail)⟩

end Derivation

/-- No two messages that are hashed for these derivations have one digest. -/
def PdaCollisionFree (derived : Set Derivation) : Prop :=
  Set.InjOn Crypto.sha256 (Derivation.message '' derived)

theorem PdaCollisionFree.derivation_eq {derived : Set Derivation} {d d' : Derivation} {key : Pubkey}
    (h : PdaCollisionFree derived) (hd : d ∈ derived) (hd' : d' ∈ derived)
    (hkey : d.address = some key) (hkey' : d'.address = some key) :
    d.seeds.flatten = d'.seeds.flatten ∧ d.programId = d'.programId := by
  apply Derivation.eq_of_message
  apply h (Set.mem_image_of_mem _ hd) (Set.mem_image_of_mem _ hd')
  rw [Derivation.sha256_message hkey, Derivation.sha256_message hkey']

/-- A top-level instruction as it may run where `behaves` says what the known programs do: key pairs
sign the transaction, a program passes on the signatures it holds and signs for addresses it derives
from itself, and nothing else. `derived` has the derivations that occur. -/
structure Lawful (derived : Set Derivation)
    (behaves : List (Frame σ ev) → Invocation σ ev → Prop) (root : Invocation σ ev) : Prop where
  signers : ∀ key, root.frame.Signed key → Crypto.onCurve key = true
  granted : ∀ callers t, root.Under callers t → ∀ c ∈ t.calls, ∀ key, c.frame.Signed key →
    t.frame.Signed key ∨ ∃ d ∈ derived, d.programId = t.frame.programId ∧ d.address = some key
  noReentry : root.NoReentry Frame.programId
  sandboxed : ∀ callers t, root.Under callers t → Sandboxed t
  behaves : ∀ callers t, root.Under callers t → behaves callers t

/-- All the derivations that lead off the curve. -/
def addressed : Set Derivation := {d | d.address ≠ none}

omit [Crypto] in
/-- Where finitely many digests are known, all of them different, and what else is hashed is on the
curve, no two addresses collide at all. -/
theorem pdaCollisionFree_ofKnown {digests : List (List UInt8 × Hash)} {points : List Pubkey}
    (hdistinct : ∀ p ∈ digests, ∀ q ∈ digests, p.2 = q.2 → p.1 = q.1)
    (hzero : Bytes.zero 32 ∈ points) :
    @PdaCollisionFree (.ofKnown digests points) (@addressed (.ofKnown digests points)) := by
  let crypto : Crypto := .ofKnown digests points
  have hknown : ∀ d : Derivation, d.address ≠ none →
      (d.message, Crypto.sha256 d.message) ∈ digests := by
    intro d h
    obtain ⟨key, haddress⟩ := Option.ne_none_iff_exists'.mp h
    have hcurve := offCurve_of_isPda (Derivation.isPda haddress)
    rw [Derivation.sha256_message haddress]
    have hkey : key = (digests.lookup d.message).getD (Bytes.zero 32) :=
      createProgramAddress_eq_hashv haddress
    cases hlookup : digests.lookup d.message with
    | none =>
      rw [hlookup] at hkey
      have hpoint : points.contains key = true := by
        rw [hkey]
        exact List.contains_iff_mem.mpr hzero
      rw [show Crypto.onCurve key = points.contains key from rfl, hpoint] at hcurve
      cases hcurve
    | some digest =>
      rw [hlookup] at hkey
      obtain ⟨l₁, l₂, hsplit, -⟩ := List.lookup_eq_some_iff.mp hlookup
      rw [hkey, hsplit]
      simp
  rintro _ ⟨d, hd, rfl⟩ _ ⟨d', hd', rfl⟩ hsame
  exact hdistinct _ (hknown d hd) _ (hknown d' hd') hsame

variable {derived : Set Derivation} {behaves : List (Frame σ ev) → Invocation σ ev → Prop}
  {root t : Invocation σ ev} {callers : List (Frame σ ev)} {p key : Pubkey}

/-- Whoever holds the signature of a program's address got it on an unbroken line from a call the
program itself made. -/
theorem Lawful.signed_by (h : Lawful derived behaves root) (hpda : PdaCollisionFree derived)
    {d : Derivation} (hd : d ∈ derived) (hkey : d.address = some key) (ht : root.Under callers t)
    (hsigned : t.frame.Signed key) :
    ∃ outer s c, root.Under outer s ∧ c ∈ s.calls ∧ s.frame.programId = d.programId ∧
      c.frame.Signed key ∧
      (t = c ∧ callers = s.frame :: outer ∨ c.frame :: s.frame :: outer <:+ callers) := by
  have hroot : ¬ root.frame.Signed key := by
    intro hs
    have hcurve := h.signers key hs
    rw [offCurve_of_isPda (Derivation.isPda hkey)] at hcurve
    cases hcurve
  obtain ⟨outer, s, c, hs, hc, hcreates, hholds, hline⟩ := CallTree.created_of_held
    (fun f => f.Signed key)
    (fun f => ∃ d ∈ derived, d.programId = f.programId ∧ d.address = some key) hroot
    (fun callers t ht c hc => h.granted callers t ht c hc key) ht hsigned
  obtain ⟨d', hd', hprogram, hkey'⟩ := hcreates
  have hsame := (hpda.derivation_eq hd' hd hkey' hkey).2
  exact ⟨outer, s, c, hs, hc, hprogram.symm.trans hsame, hholds, hline⟩

/-- No program below a program's call returns data in its name. -/
theorem Lawful.returned_ne (h : Lawful derived behaves root)
    (hself : root.NeverSelf Frame.programId p)
    (hnative : ¬ IsNative p) (ht : root.Under callers t) (hp : p ∈ callers.map Frame.programId)
    {q : Pubkey} {data : List UInt8} (hreturned : t.frame.returned = some (q, data)) : q ≠ p := by
  induction t using CallTree.induct generalizing callers with
  | h t ih =>
    rintro rfl
    rcases (h.sandboxed callers t ht).returned q data hreturned with hq | hq | ⟨c, hc, hq⟩
    · exact CallTree.not_again h.noReentry hself ht hp hq.symm
    · exact hnative hq
    · exact ih c hc (.call ht hc) (List.mem_cons_of_mem _ hp) hq rfl

/-- Below a program's call its accounts stay as they are. -/
theorem Lawful.spared (h : Lawful derived behaves root) (hself : root.NeverSelf Frame.programId p)
    (hnative : ¬ IsNative p) (ht : root.Under callers t) (hp : p ∈ callers.map Frame.programId) :
    Spared p t.frame.before t.frame.after := by
  induction t using CallTree.induct generalizing callers with
  | h t ih =>
    have hrel := (h.sandboxed callers t ht).relates (f := fun _ => ([] : List Unit))
      (R := fun L _ L' => Spared p L L')
    apply hrel
    · intro L L' hstep
      apply hstep p _ hnative
      exact (CallTree.not_again h.noReentry hself ht hp).symm
    · intro L L' L'' _ _ hfirst hsecond
      exact hfirst.trans hsecond
    · intro c hc
      exact ih c hc (.call ht hc) (List.mem_cons_of_mem _ hp)

/-- The instructions of committed transactions one after the other; a transaction that fails leaves
no trace. -/
structure Ran (derived : Set Derivation) (behaves : List (Frame σ ev) → Invocation σ ev → Prop)
    (L : Ledger σ) (ts : List (Invocation σ ev)) (L' : Ledger σ) : Prop where
  lawful : ∀ t ∈ ts, Lawful derived behaves t
  ledgers : CallTree.Interleaved Eq L (ts.map fun t => t.frame.span) L'

theorem Ran.cons {t : Invocation σ ev} {ts : List (Invocation σ ev)} {L' : Ledger σ}
    (h : Lawful derived behaves t) (hrest : Ran derived behaves t.frame.after ts L') :
    Ran derived behaves t.frame.before (t :: ts) L' := by
  constructor
  · intro c hc
    rcases List.mem_cons.mp hc with rfl | hc
    · exact h
    · exact hrest.lawful c hc
  · exact .call rfl hrest.ledgers

theorem Ran.single {t : Invocation σ ev} (h : Lawful derived behaves t) :
    Ran derived behaves t.frame.before [t] t.frame.after := by
  constructor
  · intro c hc
    rw [List.mem_singleton.mp hc]
    exact h
  · exact .call rfl (.done rfl)

/-- The step rule for runs: what a transaction's instruction does and composes, the run does. -/
theorem Ran.relates {β : Type} {R : Ledger σ → List β → Ledger σ → Prop} {f : Frame σ ev → List β}
    {L L' : Ledger σ} {ts : List (Invocation σ ev)} (h : Ran derived behaves L ts L')
    (hrefl : ∀ L, R L [] L)
    (hcomp : ∀ L L' L'' xs ys, R L xs L' → R L' ys L'' → R L (xs ++ ys) L'')
    (hstep : ∀ t, Lawful derived behaves t → R t.frame.before (t.collect f) t.frame.after) :
    R L (CallTree.collectAll f ts) L' := by
  apply CallTree.Interleaved.relates _ hcomp _ h.ledgers
  · rintro L _ rfl
    exact hrefl L
  · intro t ht
    exact hstep t (h.lawful t ht)

/-- The events a program emitted along a run. -/
def emittedBy (p : Pubkey) (f : Frame σ ev) : List ev := if f.programId = p then f.emitted else []

end Trees

section Tracing

variable [Crypto] {σ ev : Type} {programId : Pubkey}

/-- A logged call as an invocation that made no calls. -/
def EngineCall.leaf (ev : Type) (c : EngineCall σ) : Invocation σ ev :=
  .call ⟨c.instruction, c.before, c.after, c.returned, []⟩ []

/-- A logged call that this callee answered and whose answer was carried out. -/
def EngineCall.Invoked (ev : Type) (callee : Callee σ programId) (c : EngineCall σ) : Prop :=
  ∃ response, ∃ w w' : World σ ev, callee c.instruction c.before = some response ∧
    (performAll (c.instruction.privileges programId) response.actions).run w = (.ok (), w') ∧
    c.before = w.ledger ∧ c.after = w'.ledger ∧ c.returned = response.returned

/-- Between two worlds this callee was called, and any new return data is that of a call. -/
def Traced (callee : Callee σ programId) (w w' : World σ ev) : Prop :=
  ∃ cs, engineCalls w'.log = engineCalls w.log ++ cs ∧ (∀ c ∈ cs, c.Invoked ev callee) ∧
    (w'.returnData = w.returnData ∨ w'.returnData = none ∨ ∃ c ∈ cs, c.returned = w'.returnData)

variable {callee : Callee σ programId} {w w' w'' : World σ ev}

theorem Traced.of_quiet (hcalls : engineCalls w'.log = engineCalls w.log)
    (hreturned : w'.returnData = w.returnData ∨ w'.returnData = none) : Traced callee w w' := by
  refine ⟨[], by rw [hcalls, List.append_nil], by simp, ?_⟩
  rcases hreturned with h | h
  · exact .inl h
  · exact .inr (.inl h)

theorem Traced.refl (w : World σ ev) : Traced callee w w := .of_quiet rfl (.inl rfl)

theorem Traced.trans (h : Traced callee w w') (h' : Traced callee w' w'') : Traced callee w w'' := by
  obtain ⟨cs, hcs, hinvoked, hreturned⟩ := h
  obtain ⟨cs', hcs', hinvoked', hreturned'⟩ := h'
  refine ⟨cs ++ cs', ?_, ?_, ?_⟩
  · rw [hcs', hcs, List.append_assoc]
  · intro c hc
    rcases List.mem_append.mp hc with hc | hc
    · exact hinvoked c hc
    · exact hinvoked' c hc
  · rcases hreturned' with hsame | hnone | ⟨c, hc, hdata⟩
    · rw [hsame]
      rcases hreturned with hsame | hnone | ⟨c, hc, hdata⟩
      · exact .inl hsame
      · exact .inr (.inl hnone)
      · exact .inr (.inr ⟨c, List.mem_append_left _ hc, hdata⟩)
    · exact .inr (.inl hnone)
    · exact .inr (.inr ⟨c, List.mem_append_right _ hc, hdata⟩)

theorem invokeSigned_traced (caller : List AccountInfo) (ix : Instruction)
    (infos : List AccountInfo) (pdaSigners : List Pubkey) :
    (invokeSigned programId callee caller ix infos pdaSigners).Carries
      (Traced callee : World σ ev → World σ ev → Prop) := by
  intro w u w' h
  obtain ⟨response, w₁, hresponse, hperform, -, -, hledger, hreturned, -⟩ := invokeSigned_ok h
  obtain ⟨c, rfl, hbefore, hafter, hdata, hcalls, -⟩ := invokeSigned_called h
  refine ⟨[c], hcalls, ?_, .inr (.inr ⟨c, by simp, hdata⟩)⟩
  intro c' hc'
  rw [List.mem_singleton] at hc'
  subst hc'
  rw [← hbefore] at hresponse
  exact ⟨response, w, w₁, hresponse, hperform, hbefore, hafter.trans hledger, hdata.trans hreturned⟩

theorem tokenInvoke_traced (caller : List AccountInfo) (pdaSigners : List Pubkey) (op : TokenOp)
    (authority : Option Pubkey) :
    (tokenInvoke caller pdaSigners op authority).Carries
      (Traced callee : World σ ev → World σ ev → Prop) := by
  intro w u w' h
  obtain ⟨-, -, hreturned, -⟩ := tokenInvoke_ok h
  exact .of_quiet (tokenInvoke_quiet h).1 (.inr hreturned)

end Tracing

end ProgrammableSolana.Solana
