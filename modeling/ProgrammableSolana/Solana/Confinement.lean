import ProgrammableSolana.Solana.Runtime

/-! What a call into a foreign program leaves alone. -/
namespace ProgrammableSolana.Solana

open ProgrammableSolana.Lib

/-- A change of the ledger made by programs other than `programId` through the accounts in
`writable`: its own accounts stay, and an account that newly becomes its own is blank. -/
structure Confined {σ : Type} (programId : Pubkey) (writable : Pubkey → Bool) (L L' : Ledger σ) :
    Prop where
  frame : ∀ k, writable k = false → L' k = L k
  own : ∀ k, (L k).owner = programId → L' k = L k
  fresh : ∀ k, (L' k).owner = programId → L' k = L k ∨ (L' k).Blank

namespace Confined

variable {σ : Type} {programId : Pubkey} {writable : Pubkey → Bool} {L L' L'' : Ledger σ}

theorem refl (L : Ledger σ) : Confined programId writable L L :=
  ⟨fun _ _ => rfl, fun _ _ => rfl, fun _ _ => .inl rfl⟩

theorem trans (h : Confined programId writable L L') (h' : Confined programId writable L' L'') :
    Confined programId writable L L'' where
  frame k hk := (h'.frame k hk).trans (h.frame k hk)
  own k hk := (h'.own k (by rw [h.own k hk, hk])).trans (h.own k hk)
  fresh k hk := by
    rcases h'.fresh k hk with heq | hblank
    · rw [heq] at hk ⊢
      exact h.fresh k hk
    · exact .inr hblank

theorem mono {writable' : Pubkey → Bool} (h : Confined programId writable L L')
    (hw : ∀ k, writable' k = false → writable k = false) : Confined programId writable' L L' :=
  ⟨fun k hk => h.frame k (hw k hk), h.own, h.fresh⟩

end Confined

section Logs

variable {σ ev : Type}

@[simp] theorem engineCalls_append (l l' : List (Event σ ev)) :
    engineCalls (l ++ l') = engineCalls l ++ engineCalls l' := List.filterMap_append

@[simp] theorem engineCalls_nil : engineCalls ([] : List (Event σ ev)) = [] := rfl

@[simp] theorem engineCalls_token (op : TokenOp) (signers : List Pubkey) (L : Ledger σ)
    (l : List (Event σ ev)) :
    engineCalls (.token op signers L :: l) = engineCalls l := rfl

@[simp] theorem engineCalls_call (c : EngineCall σ) (l : List (Event σ ev)) :
    engineCalls (.call c :: l) = c :: engineCalls l := rfl

@[simp] theorem engineCalls_emitted (e : ev) (l : List (Event σ ev)) :
    engineCalls (.emitted e :: l) = engineCalls l := rfl

@[simp] theorem emittedEvents_append (l l' : List (Event σ ev)) :
    emittedEvents (l ++ l') = emittedEvents l ++ emittedEvents l' := List.filterMap_append

@[simp] theorem emittedEvents_nil : emittedEvents ([] : List (Event σ ev)) = [] := rfl

@[simp] theorem emittedEvents_token (op : TokenOp) (signers : List Pubkey) (L : Ledger σ)
    (l : List (Event σ ev)) :
    emittedEvents (.token op signers L :: l) = emittedEvents l := rfl

@[simp] theorem emittedEvents_call (c : EngineCall σ) (l : List (Event σ ev)) :
    emittedEvents (.call c :: l) = emittedEvents l := rfl

@[simp] theorem emittedEvents_emitted (e : ev) (l : List (Event σ ev)) :
    emittedEvents (.emitted e :: l) = e :: emittedEvents l := rfl

private theorem tokensOnly {l : List (Event σ ev)}
    (h : ∀ e ∈ l, ∃ op signers L, e = .token op signers L) :
    engineCalls l = [] ∧ emittedEvents l = [] := by
  induction l with
  | nil => exact ⟨rfl, rfl⟩
  | cons e l ih =>
    obtain ⟨op, signers, L, rfl⟩ := h e (by simp)
    simpa using ih fun e he => h e (by simp [he])

/-- Nothing was called and nothing emitted between two worlds. -/
def Quiet (w w' : World σ ev) : Prop :=
  engineCalls w'.log = engineCalls w.log ∧ emittedEvents w'.log = emittedEvents w.log

namespace Quiet

variable {w w' w'' : World σ ev}

theorem refl (w : World σ ev) : Quiet w w := ⟨rfl, rfl⟩

theorem trans (h : Quiet w w') (h' : Quiet w' w'') : Quiet w w'' :=
  ⟨h'.1.trans h.1, h'.2.trans h.2⟩

private theorem of_tokens {es : List (Event σ ev)} (hlog : w'.log = w.log ++ es)
    (h : ∀ e ∈ es, ∃ op signers L, e = .token op signers L) : Quiet w w' := by
  obtain ⟨hcalls, hemitted⟩ := tokensOnly h
  unfold Quiet
  rw [hlog, engineCalls_append, emittedEvents_append, hcalls, hemitted, List.append_nil,
    List.append_nil]
  exact ⟨rfl, rfl⟩

end Quiet

/-- No program was called between two worlds. -/
def Uncalled (w w' : World σ ev) : Prop := engineCalls w'.log = engineCalls w.log

namespace Uncalled

variable {w w' w'' : World σ ev}

theorem refl (w : World σ ev) : Uncalled w w := rfl

theorem trans (h : Uncalled w w') (h' : Uncalled w' w'') : Uncalled w w'' := Eq.trans h' h

end Uncalled

end Logs

theorem Instruction.privileges_callable (ix : Instruction) (programId : Pubkey) :
    (ix.privileges programId).callable programId = false := by
  simp [Instruction.privileges]

section

variable [Crypto] {σ ev : Type} {programId : Pubkey} {priv : Privileges} {w w' : World σ ev}

/-- A successful action: a guarded rewrite, or a Token instruction over writable accounts. -/
theorem Action.perform_ok {a : Action programId} (h : (a.perform priv).run w = (.ok (), w')) :
    (∃ program key newOwner executable bytes, a = .write program key newOwner executable bytes ∧
      priv.callable program = true ∧ program ≠ tokenProgram ∧ priv.writable key = true ∧
      (w.ledger key).owner = program ∧ (newOwner = program ∨ Zeroed bytes) ∧
      w' = { w with
        ledger := Function.update w.ledger key ⟨newOwner, executable, .raw bytes⟩ }) ∨
    (∃ op external ledger, a = .token op external ∧ priv.callable tokenProgram = true ∧
      (∀ key ∈ op.writes, priv.writable key = true) ∧
      op.apply w.ledger (external.map ExternalSigner.key ++ priv.signers) = .ok ledger ∧
      w' = { w with
        ledger
        log := w.log ++ [.token op (external.map ExternalSigner.key ++ priv.signers) w.ledger] }) := by
  unfold Action.perform Exec.run at h
  cases a with
  | write program key newOwner executable bytes =>
    simp only at h
    split at h
    · next hg =>
      simp only [Prod.mk.injEq, true_and] at h
      obtain ⟨hc, hp, hw, ho, hz⟩ := hg
      exact .inl ⟨program, key, newOwner, executable, bytes, rfl, hc, hp, hw, ho, hz, h.symm⟩
    · simp at h
  | token op signers =>
    simp only at h
    split at h
    · next hg =>
      split at h
      · next ledger hop =>
        simp only [Prod.mk.injEq, true_and] at h
        exact .inr ⟨op, signers, ledger, rfl, hg.1, hg.2, hop, h.symm⟩
      · simp at h
    · simp at h

/-- The relation rule for a callee: what each of its actions does, the whole call does. -/
theorem performAll_rel {R : World σ ev → World σ ev → Prop} (hrefl : ∀ w, R w w)
    (htrans : ∀ {a b c}, R a b → R b c → R a c) {as : List (Action programId)}
    (hstep : ∀ a ∈ as, ∀ w w', (a.perform priv).run w = (.ok (), w') → R w w')
    (h : (performAll priv as).run w = (.ok (), w')) : R w w' := by
  induction as generalizing w with
  | nil =>
    obtain ⟨-, rfl⟩ := Exec.pure_ok_iff.mp h
    exact hrefl _
  | cons a as ih =>
    obtain ⟨_, w₁, ha, has⟩ := Exec.bind_ok_iff.mp h
    exact htrans (hstep a (by simp) w w₁ ha)
      (ih (fun a' ha' => hstep a' (by simp [ha'])) has)

theorem Action.perform_confined {a : Action programId} (hT : programId ≠ tokenProgram)
    (hS : programId ≠ systemProgram) (hcall : priv.callable programId = false)
    (h : (a.perform priv).run w = (.ok (), w')) :
    Confined programId priv.writable w.ledger w'.ledger := by
  rcases Action.perform_ok h with
    ⟨program, key, newOwner, executable, bytes, -, hc, -, hw, howner, hzero, rfl⟩ |
    ⟨op, signers, ledger, -, -, hw, hop, rfl⟩
  · have hprogram : program ≠ programId := by
      rintro rfl
      rw [hcall] at hc
      cases hc
    refine ⟨fun k hk => ?_, fun k hk => ?_, fun k hk => ?_⟩
    · refine Function.update_of_ne ?_ _ _
      rintro rfl
      rw [hw] at hk
      cases hk
    · refine Function.update_of_ne ?_ _ _
      rintro rfl
      exact hprogram (howner.symm.trans hk)
    · by_cases hkey : k = key
      · subst hkey
        simp only [Function.update_self] at hk ⊢
        subst hk
        exact .inr (hzero.resolve_left fun h => hprogram h.symm)
      · exact .inl (Function.update_of_ne hkey _ _)
  · have hstep := TokenOp.apply_cases hop
    have hforeign : ∀ k, (w.ledger k).owner = programId → ledger k = w.ledger k := by
      intro k hk
      exact (hstep k).foreign (by rw [hk]; exact hT)
    refine ⟨fun k hk => (hstep k).frame fun hmem => ?_, hforeign, fun k hk => ?_⟩
    · rw [hw k hmem] at hk
      cases hk
    · rcases (hstep k).owner with ho | ho
      · exact .inl (hforeign k (ho.symm.trans hk))
      · exact absurd (hk.symm.trans ho) hS

theorem Action.perform_quiet {a : Action programId} (h : (a.perform priv).run w = (.ok (), w')) :
    Quiet w w' := by
  rcases Action.perform_ok h with ⟨_, _, _, _, _, -, -, -, -, -, -, rfl⟩ | ⟨op, _, _, -, -, -, -, rfl⟩
  · exact .refl _
  · exact .of_tokens rfl (by simp)

theorem Action.perform_uncalled (priv : Privileges) (a : Action programId) :
    (a.perform priv : Exec (World σ ev) RuntimeError Unit).Leaves Uncalled := by
  intro w
  rcases h : (a.perform priv).run w with ⟨r | u, w'⟩
  · have hsame : w' = w := by
      unfold Action.perform Exec.run at h
      cases a with
      | write program key newOwner executable bytes =>
        simp only at h
        split at h
        · cases h
        · exact (Prod.mk.inj h).2.symm
      | token op signers =>
        simp only at h
        split at h
        · split at h
          · cases h
          · exact (Prod.mk.inj h).2.symm
        · exact (Prod.mk.inj h).2.symm
    rw [hsame]
    exact .refl w
  · exact (Action.perform_quiet h).1

private theorem performAll_uncalled (priv : Privileges) (as : List (Action programId)) :
    (performAll priv as : Exec (World σ ev) RuntimeError Unit).Leaves Uncalled := by
  induction as with
  | nil => exact Exec.leaves_pure .refl ()
  | cons a as ih =>
    apply Exec.Leaves.bind .trans (Action.perform_uncalled priv a)
    intro _
    exact ih

private theorem performAll_confined {as : List (Action programId)} (hT : programId ≠ tokenProgram)
    (hS : programId ≠ systemProgram) (hcall : priv.callable programId = false)
    (h : (performAll priv as).run w = (.ok (), w')) :
    Confined programId priv.writable w.ledger w'.ledger :=
  performAll_rel (R := fun w w' => Confined programId priv.writable w.ledger w'.ledger)
    (fun w => .refl w.ledger) .trans (fun _ _ _ _ => Action.perform_confined hT hS hcall) h

private theorem performAll_log {as : List (Action programId)}
    (h : (performAll priv as).run w = (.ok (), w')) :
    ∃ es, w'.log = w.log ++ es ∧ ∀ e ∈ es, ∃ op signers before, e = .token op signers before := by
  refine performAll_rel (R := fun w w' =>
      ∃ es, w'.log = w.log ++ es ∧ ∀ e ∈ es, ∃ op signers before, e = Event.token op signers before)
    (fun w => ⟨[], by simp⟩) ?_ (fun a _ w w' ha => ?_) h
  · rintro a b c ⟨es, hes, hall⟩ ⟨es', hes', hall'⟩
    refine ⟨es ++ es', by rw [hes', hes, List.append_assoc], fun e he => ?_⟩
    rcases List.mem_append.mp he with he | he
    · exact hall e he
    · exact hall' e he
  · rcases Action.perform_ok ha with ⟨_, _, _, _, _, -, -, -, -, -, -, rfl⟩ | ⟨op, _, _, -, -, -, -, rfl⟩
    · exact ⟨[], by simp⟩
    · exact ⟨[.token op _ w.ledger], rfl, by simp⟩

/-- A successful call: what it checked, what the callee answered and the world it left. -/
theorem invokeSigned_ok {callee : Callee σ programId} {caller infos : List AccountInfo}
    {ix : Instruction} {pdaSigners : List Pubkey} {u : Unit}
    (h : (invokeSigned programId callee caller ix infos pdaSigners).run w = (.ok u, w')) :
    ∃ response w₁, callee ix w.ledger = some response ∧
      (performAll (ix.privileges programId) response.actions).run w = (.ok (), w₁) ∧
      (∀ m ∈ ix.accounts, m.Granted caller pdaSigners) ∧ ix.programId ≠ programId ∧
      w'.ledger = w₁.ledger ∧ w'.returnData = response.returned ∧
      w'.log = w₁.log ++ [.call ⟨ix, w.ledger, w'.ledger, response.returned⟩] := by
  simp only [invokeSigned, Exec.bind_ok_iff, Exec.ensure_ok_iff, Exec.ofExcept_ok_iff, Exec.get_ok_iff,
    okOr_ok_iff, Exec.modify_ok_iff] at h
  obtain ⟨_, _, ⟨-, rfl⟩, _, _, ⟨hgranted, rfl⟩, _, _, ⟨-, rfl⟩, _, _, ⟨rfl, rfl⟩, _, _, ⟨-, rfl⟩, _, _,
    ⟨hne, rfl⟩, response, _, ⟨hres, rfl⟩, _, w₁, hall, rfl⟩ := h
  exact ⟨response, w₁, hres, hall, hgranted, hne, rfl, rfl, rfl⟩

/-- What a successful call leaves in the log. -/
theorem invokeSigned_called {callee : Callee σ programId} {caller infos : List AccountInfo}
    {ix : Instruction} {pdaSigners : List Pubkey} {u : Unit}
    (h : (invokeSigned programId callee caller ix infos pdaSigners).run w = (.ok u, w')) :
    ∃ c : EngineCall σ, c.instruction = ix ∧ c.before = w.ledger ∧ c.after = w'.ledger ∧
      c.returned = w'.returnData ∧ engineCalls w'.log = engineCalls w.log ++ [c] ∧
      emittedEvents w'.log = emittedEvents w.log := by
  obtain ⟨response, w₁, -, hall, -, -, -, hreturned, hlog⟩ := invokeSigned_ok h
  obtain ⟨es, hes, htokens⟩ := performAll_log hall
  obtain ⟨hcalls, hemitted⟩ := tokensOnly htokens
  refine ⟨⟨ix, w.ledger, w'.ledger, response.returned⟩, rfl, rfl, rfl, hreturned.symm, ?_, ?_⟩
  · rw [hlog, hes]
    simp [hcalls]
  · rw [hlog, hes]
    simp [hemitted]

/-- A call that fails is not in the log. -/
theorem invokeSigned_uncalled {callee : Callee σ programId} {caller infos : List AccountInfo}
    {ix : Instruction} {pdaSigners : List Pubkey} {r : RuntimeError}
    (h : (invokeSigned programId callee caller ix infos pdaSigners).run w = (.error r, w')) :
    Uncalled w w' := by
  have hends : (invokeSigned programId callee caller ix infos pdaSigners).Ends w
      (fun _ w' => Uncalled w w') fun _ _ => True := by
    unfold invokeSigned Exec.ensure
    iterate 3
      apply Exec.ends_ofExcept_bind_of (fun _ _ => Uncalled.refl w)
      intro _ _
    apply Exec.ends_get_bind
    iterate 3
      apply Exec.ends_ofExcept_bind_of (fun _ _ => Uncalled.refl w)
      intro _ _
    apply Exec.ends_bind_of
    · intro e w₁ hperform
      exact (performAll_uncalled _ _).of_error hperform
    · intro _ _ _
      trivial
  exact hends.of_error h

/-- The call was answered by this callee. -/
def EngineCall.AnsweredBy (callee : Callee σ programId) (c : EngineCall σ) : Prop :=
  ∃ response, callee c.instruction c.before = some response ∧ c.returned = response.returned

theorem invokeSigned_answered {callee : Callee σ programId} {caller infos : List AccountInfo}
    {ix : Instruction} {pdaSigners : List Pubkey} {u : Unit}
    (h : (invokeSigned programId callee caller ix infos pdaSigners).run w = (.ok u, w')) :
    ∃ c : EngineCall σ, engineCalls w'.log = engineCalls w.log ++ [c] ∧ c.AnsweredBy callee := by
  obtain ⟨response, w₁, hresponse, -, -, -, -, hreturned, -⟩ := invokeSigned_ok h
  obtain ⟨c, hix, hbefore, -, hdata, hcalls, -⟩ := invokeSigned_called h
  refine ⟨c, hcalls, response, ?_, ?_⟩
  · rw [hix, hbefore]
    exact hresponse
  · exact hdata.trans hreturned

/-- A call changes the ledger only as its metas allow. -/
theorem invokeSigned_confined {callee : Callee σ programId} {caller infos : List AccountInfo}
    {ix : Instruction} {pdaSigners : List Pubkey} {u : Unit} (hT : programId ≠ tokenProgram)
    (hS : programId ≠ systemProgram)
    (h : (invokeSigned programId callee caller ix infos pdaSigners).run w = (.ok u, w')) :
    Confined programId (ix.privileges programId).writable w.ledger w'.ledger := by
  obtain ⟨response, w₁, -, hall, -, -, hledger, -⟩ := invokeSigned_ok h
  rw [hledger]
  exact performAll_confined hT hS (ix.privileges_callable programId) hall

end

/-- A successful Token call of the running program. -/
theorem tokenInvoke_ok {σ ev : Type} {w w' : World σ ev} {caller : List AccountInfo}
    {pdaSigners : List Pubkey} {op : TokenOp} {authority : Option Pubkey} {u : Unit}
    (h : (tokenInvoke caller pdaSigners op authority).run w = (.ok u, w')) :
    (∀ a ∈ authority, (∃ info ∈ caller, info.key = a ∧ info.isSigner = true) ∨ a ∈ pdaSigners) ∧
      op.apply w.ledger authority.toList = .ok w'.ledger ∧ w'.returnData = none ∧
      w'.log = w.log ++ [.token op authority.toList w.ledger] := by
  simp only [tokenInvoke, Exec.bind_ok_iff, Exec.ensure_ok_iff, Exec.ofExcept_ok_iff,
    Exec.get_ok_iff, mapError_ok_iff, Exec.modify_ok_iff] at h
  obtain ⟨_, _, ⟨-, rfl⟩, _, _, ⟨hsigned, rfl⟩, _, _, ⟨rfl, rfl⟩, ledger, _, ⟨hop, rfl⟩, rfl⟩ := h
  exact ⟨hsigned, hop, rfl, rfl⟩

theorem tokenInvoke_uncalled {σ ev : Type} (caller : List AccountInfo) (pdaSigners : List Pubkey)
    (op : TokenOp) (authority : Option Pubkey) :
    (tokenInvoke caller pdaSigners op authority).Leaves
      (Uncalled : World σ ev → World σ ev → Prop) := by
  unfold tokenInvoke Exec.ensure
  iterate 2
    apply Exec.leaves_ofExcept_bind Uncalled.refl
    intro _
  apply Exec.leaves_get_bind
  intro before
  apply Exec.leaves_ofExcept_bind Uncalled.refl
  intro ledger
  apply Exec.leaves_modify
  intro w
  unfold Uncalled
  simp

theorem tokenInvoke_quiet {σ ev : Type} {caller : List AccountInfo} {pdaSigners : List Pubkey}
    {op : TokenOp} {authority : Option Pubkey} {w w' : World σ ev} {u : Unit}
    (h : (tokenInvoke caller pdaSigners op authority).run w = (.ok u, w')) : Quiet w w' := by
  obtain ⟨-, -, -, hlog⟩ := tokenInvoke_ok h
  exact .of_tokens hlog (by simp)

end ProgrammableSolana.Solana
